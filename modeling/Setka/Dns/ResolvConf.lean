import Mathlib.Data.List.TakeWhile
import Setka.Net.AddressText

/-!
# The server of the system

`InitDNS` on Linux: the scan of `/etc/resolv.conf` for the first name server.

* `lineEnd`, `scan`, `initDNS`   the code: `p` is a position in the buffer; `none` is a read outside
                     of the buffer, a step before its start, a failed `ASSERT`, or no end;
* `lines`, `cut`     the lines of the file, and what is left of an address: the characters up to the
                     first one that is no digit, dot or colon;
* `scan_eq`          the scan ends, and takes the first line whose cut address is accepted;
* `initDNS_dotted`   a first name server with an IPv4 address is set;
* `setsServer_iff`   the first name server is the one that is set if and only if the cut does not
                     matter.
-/

namespace Setka

/-! ## strings -/

/-- `reinterpret_cast<const char*>` -/
def charOf (b : UInt8) : Char := Char.ofNat b.toNat

/-- `line.find(s)` -/
def findText (s : List Char) : List Char → Option ℕ
  | [] => if s = [] then some 0 else none
  | c :: line => if s <+: c :: line then some 0 else (findText s line).map (· + 1)

/-- `line.find_first_not_of(":.0123456789", start)` -/
def findFirstNotOf (inSet : Char → Bool) (line : List Char) (start : ℕ) : Option ℕ :=
  ((line.drop start).findIdx? fun c => !inSet c).map (start + ·)

/-- `line.substr(start, stop - start)`, where no `stop` is `npos` -/
def substr (line : List Char) (start : ℕ) : Option ℕ → List Char
  | none => line.drop start
  | some stop => (line.drop start).take (stop - start)

/-! ## the scan -/

/-- `'\n'` -/
def newline : UInt8 := 10

/-- `const std::string ns("nameserver ")` -/
def nameserver : List Char := "nameserver ".toList

def inAddress (c : Char) : Bool := c ∈ ":.0123456789".toList

/-- `address(const char* host_str, uint16_t p)` -/
def Address.ofHost (net : InetPton) (host_str : List Char) (p : UInt16) : Option Address :=
  (Ip.parse net host_str).map fun host => ⟨host, p⟩

/-- the body of the loop, from the search for `ns` on: the address if the line has one -/
def serverOf (net : InetPton) (line : List Char) : Option Address :=
  match findText nameserver line with
  | some 0 =>
    let ipStart := 0 + nameserver.length
    let ipEnd := findFirstNotOf inAddress line ipStart
    Address.ofHost net (substr line ipStart ipEnd) 53
  | _ => none

/-- `while(p != &*buf.end() && *p != '\n') ++p` -/
def lineEnd (buf : List UInt8) : ℕ → ℕ → Option ℕ
  | 0, _ => none
  | fuel + 1, p =>
    if p = buf.length then some p
    else do
      let b ← buf[p]?
      if b ≠ newline then lineEnd buf fuel (p + 1) else some p

/-- `--p` -/
def stepBack : ℕ → Option ℕ
  | 0 => none
  | p + 1 => some p

/-- the loop over the lines; the result is the address of the `return`, or none at the end -/
def scan (net : InetPton) (buf : List UInt8) : ℕ → ℕ → Option (Option Address)
  | 0, _ => none
  | fuel + 1, start =>
    if start = buf.length then some none
    else do
      let p ← lineEnd buf (buf.length + 1) start
      if p < start then none
      else do
        let line := ((buf.drop start).take (p - start)).map charOf
        let p ← if p = buf.length then stepBack p else some p
        match serverOf net line with
        | some dns => some (some dns)
        | none => scan net buf fuel (p + 1)

/-- `InitDNS`; `load` is `fs_file("/etc/resolv.conf").load()`, which may throw -/
def initDNS (net : InetPton) (load : ℕ → Option (List UInt8)) : Option Address :=
  match load 0xfff with
  | none => some .unset
  | some buf => (scan net buf (buf.length + 1) 0).map fun dns => dns.getD .unset

/-! ## what the scan does -/

/-- the lines of a file, as text -/
def lines (content : List UInt8) : List (List Char) :=
  (content.splitOn newline).map fun line => line.map charOf

/-- what is left of an address -/
def cut (text : List Char) : List Char := text.takeWhile inAddress

theorem findText_eq_zero {s line : List Char} : findText s line = some 0 ↔ s <+: line := by
  cases line with
  | nil =>
    rw [List.prefix_nil]
    unfold findText
    split
    · rename_i hs
      exact iff_of_true rfl hs
    · rename_i hs
      exact iff_of_false nofun hs
  | cons c line =>
    unfold findText
    split
    · rename_i hs
      exact iff_of_true rfl hs
    · rename_i hs
      refine iff_of_false (fun h => ?_) hs
      obtain ⟨n, _, hn⟩ := Option.map_eq_some_iff.mp h
      cases hn

/-- The characters up to the first one outside of the set. -/
theorem substr_findFirstNotOf (inSet : Char → Bool) (line : List Char) (start : ℕ) :
    substr line start (findFirstNotOf inSet line start) = (line.drop start).takeWhile inSet := by
  unfold findFirstNotOf
  cases h : (line.drop start).findIdx? fun c => !inSet c with
  | none =>
    refine (List.takeWhile_eq_self_iff.mpr fun c hc => ?_).symm
    simpa using List.findIdx?_eq_none_iff.mp h c hc
  | some i =>
    rw [Option.map_some]
    show (line.drop start).take (start + i - start) = _
    rw [Nat.add_sub_cancel_left, List.takeWhile_eq_take_findIdx_not,
      (List.findIdx?_eq_some_iff_findIdx_eq.mp h).2]

/-- A line that names a server. -/
theorem serverOf_nameserver (net : InetPton) (text : List Char) :
    serverOf net (nameserver ++ text) = Address.ofHost net (cut text) 53 := by
  have hfind : findText nameserver (nameserver ++ text) = some 0 :=
    findText_eq_zero.mpr (List.prefix_append _ _)
  unfold serverOf
  rw [hfind]
  dsimp only
  rw [substr_findFirstNotOf, Nat.zero_add, List.drop_left]
  rfl

theorem serverOf_other (net : InetPton) {line : List Char} (h : ¬ nameserver <+: line) :
    serverOf net line = none := by
  unfold serverOf
  split
  · rename_i hz
    exact absurd (findText_eq_zero.mp hz) h
  · rfl

section
variable {net : InetPton} {buf : List UInt8} {fuel p : ℕ}

/-- The inner loop ends at the next newline, or at the end of the buffer. -/
theorem lineEnd_eq (hp : p ≤ buf.length) (hf : buf.length - p < fuel) :
    lineEnd buf fuel p = some (p + ((buf.drop p).takeWhile (· ≠ newline)).length) := by
  induction fuel generalizing p with
  | zero => exact absurd hf (Nat.not_lt_zero _)
  | succ fuel ih =>
    unfold lineEnd
    by_cases hend : p = buf.length
    · rw [if_pos hend, hend, List.drop_length]
      rfl
    · have hlt : p < buf.length := by omega
      have hdrop : buf.drop p = buf[p] :: buf.drop (p + 1) := List.drop_eq_getElem_cons hlt
      rw [if_neg hend, List.getElem?_eq_getElem hlt, hdrop]
      show (if buf[p] ≠ newline then _ else _) = _
      split
      · rename_i hb
        rw [ih (by omega) (by omega), List.takeWhile_cons_of_pos (by simpa using hb),
          List.length_cons, Nat.add_right_comm, Nat.add_assoc]
      · rename_i hb
        rw [List.takeWhile_cons_of_neg (by simpa using hb)]
        rfl

theorem lines_single {line : List UInt8} (h : newline ∉ line) : lines line = [line.map charOf] := by
  unfold lines
  rw [List.splitOn_eq_singleton h]
  rfl

theorem lines_cons {line : List UInt8} (h : newline ∉ line) (rest : List UInt8) :
    lines (line ++ newline :: rest) = line.map charOf :: lines rest := by
  unfold lines
  rw [List.splitOn_append_cons_self_of_not_mem h, List.map_cons]

theorem newline_notMem_takeWhile (l : List UInt8) : newline ∉ l.takeWhile (· ≠ newline) := by
  intro h
  have hne := List.mem_takeWhile_imp h
  simp at hne

/-- no line, no server -/
theorem findSome?_serverOf_nil (net : InetPton) : (lines []).findSome? (serverOf net) = none := by
  have hnil : serverOf net [] = none := serverOf_other net (by decide)
  rw [lines_single List.not_mem_nil, List.map_nil, List.findSome?_cons, hnil]
  rfl

/-- **The scan ends,** and takes the first line that gives an address. -/
theorem scan_eq (hp : p ≤ buf.length) (hf : buf.length - p < fuel) :
    scan net buf fuel p = some ((lines (buf.drop p)).findSome? (serverOf net)) := by
  induction fuel generalizing p with
  | zero => exact absurd hf (Nat.not_lt_zero _)
  | succ fuel ih =>
    unfold scan
    by_cases hend : p = buf.length
    · rw [if_pos hend, hend, List.drop_length, findSome?_serverOf_nil]
    · have hlen : (buf.drop p).length = buf.length - p := List.length_drop
      have hsplit := List.takeWhile_append_dropWhile (p := (· ≠ newline)) (l := buf.drop p)
      have hfree := newline_notMem_takeWhile (buf.drop p)
      have hline : lineEnd buf (buf.length + 1) p =
          some (p + ((buf.drop p).takeWhile (· ≠ newline)).length) := lineEnd_eq hp (by omega)
      generalize (buf.drop p).takeWhile (· ≠ newline) = line at hsplit hfree hline
      have htake : (buf.drop p).take (p + line.length - p) = line := by
        rw [Nat.add_sub_cancel_left, ← hsplit, List.take_left]
      rw [if_neg hend, hline]
      show (if p + line.length < p then _ else _) = _
      rw [if_neg (by omega), htake]
      cases hrest : (buf.drop p).dropWhile (· ≠ newline) with
      | nil =>
        -- the last line, without a newline: `--p` and the `++p` of the loop lead to the end
        rw [hrest, List.append_nil] at hsplit
        have hlast : p + line.length = buf.length := by
          rw [hsplit, hlen]
          omega
        have hback : stepBack buf.length = some (buf.length - 1) := by
          obtain ⟨n, hn⟩ : ∃ n, buf.length = n + 1 := ⟨buf.length - 1, by omega⟩
          rw [hn]
          rfl
        rw [hlast, if_pos rfl, hback, ← hsplit, lines_single hfree, List.findSome?_singleton]
        simp only [Option.bind_eq_bind, Option.bind_some]
        cases serverOf net (line.map charOf) with
        | some dns => exact rfl
        | none =>
          have hnext : buf.length - 1 + 1 = buf.length := by omega
          dsimp only
          rw [hnext, ih (Nat.le_refl _) (by omega), List.drop_length, findSome?_serverOf_nil]
      | cons b rest =>
        -- the line ends at a newline, which the `++p` of the loop steps over
        have hb : b = newline := by
          have hhead := List.head?_dropWhile_not (· ≠ newline) (buf.drop p)
          rw [hrest] at hhead
          simpa using hhead
        rw [hrest, hb] at hsplit
        have hlength := congrArg List.length hsplit
        rw [List.length_append, List.length_cons, hlen] at hlength
        have hdrop : buf.drop (p + line.length + 1) = rest := by
          rw [Nat.add_assoc, ← List.drop_drop, ← hsplit, ← List.drop_drop, List.drop_left]
          rfl
        rw [if_neg (by omega), ← hsplit, lines_cons hfree, List.findSome?_cons]
        simp only [Option.bind_eq_bind, Option.bind_some]
        cases serverOf net (line.map charOf) with
        | some dns => exact rfl
        | none =>
          dsimp only
          rw [ih (by omega) (by omega), hdrop]

/-- `InitDNS` of a file that is read. -/
theorem initDNS_eq {load : ℕ → Option (List UInt8)} (h : load 0xfff = some buf) :
    initDNS net load = some (((lines buf).findSome? (serverOf net)).getD .unset) := by
  unfold initDNS
  rw [h]
  dsimp only
  rw [scan_eq (Nat.zero_le _) (by omega)]
  rfl

end

/-! ## the first name server -/

/-- `f.load(n)` gives the first `n` bytes of the file. -/
def LoadsFile (load : ℕ → Option (List UInt8)) (content : List UInt8) : Prop :=
  ∀ n, load n = some (content.take n)

/-- The first line that names a server is `X`, followed by the end of the line or a space; the lines
`later` follow it. -/
def IsFirstServer (content : List UInt8) (X : List Char) (later : List (List Char)) : Prop :=
  ∃ pre rest, lines content = pre ++ (nameserver ++ (X ++ rest)) :: later ∧
    (∀ line ∈ pre, ¬ nameserver <+: line) ∧ (rest = [] ∨ rest.head? = some ' ')

/-- The first line whose cut address is accepted gives this host. -/
def FirstAccepted (net : InetPton) (ls : List (List Char)) (host : Ip) : Prop :=
  ∃ pre text post, ls = pre ++ (nameserver ++ text) :: post ∧
    (∀ text', nameserver ++ text' ∈ pre → Ip.parse net (cut text') = none) ∧
    Ip.parse net (cut text) = some host

/-- What `InitDNS` is for: the first name server is set, without one the address is invalid, and the
scan ends inside of the buffer. -/
structure SetsServer (net : InetPton) (load : ℕ → Option (List UInt8)) (content : List UInt8) :
    Prop where
  found : ∀ X later host, IsFirstServer content X later → Ip.parse net X = some host →
    initDNS net load = some ⟨host, 53⟩
  notFound : (∀ line ∈ lines content, ¬ nameserver <+: line) →
    ∃ dns, initDNS net load = some dns ∧ dns.host.isValid = false
  ends : (initDNS net load).isSome = true

/-- The address of the first name server is read as it stands there, after the cut too; or the cut
text is refused, and a later line stands in with the same address. -/
def CutHarmless (net : InetPton) (content : List UInt8) : Prop :=
  ∀ X later host, IsFirstServer content X later → Ip.parse net X = some host →
    Ip.parse net (cut X) = some host ∨
    (Ip.parse net (cut X) = none ∧ FirstAccepted net later host)

section
variable {net : InetPton} {content : List UInt8} {load : ℕ → Option (List UInt8)}

/-- An address of digits, dots and colons is not cut. -/
theorem cut_eq_self {X : List Char} (h : ∀ c ∈ X, inAddress c = true) : cut X = X :=
  List.takeWhile_eq_self_iff.mpr h

/-- An IPv4 address is not cut. -/
theorem cut_dottedText (a : Fin 4 → UInt8) : cut (dottedText a) = dottedText a := by
  have hdigit : ∀ d < 10, inAddress (Nat.digitChar d) = true := by decide
  refine cut_eq_self fun c hc => ?_
  have hparts : c = '.' ∨ ∃ i, c ∈ Nat.toDigits 10 (a i).toNat := by
    unfold dottedText at hc
    simp only [List.ofFn_succ, List.ofFn_zero, List.intercalate, List.intersperse,
      List.flatten_cons, List.flatten_nil, List.mem_append, List.mem_singleton,
      List.append_nil] at hc
    grind
  rcases hparts with rfl | ⟨i, hmem⟩
  · decide
  · obtain ⟨d, hd, rfl⟩ := Digits.mem_toDigits (by decide) hmem
    exact hdigit d hd

/-- What follows the address does not get into it. -/
theorem cut_append {X rest : List Char} (h : rest = [] ∨ rest.head? = some ' ') :
    cut (X ++ rest) = cut X := by
  have hrest : rest.takeWhile inAddress = [] := by
    rcases h with rfl | h
    · rfl
    · obtain ⟨tail, rfl⟩ := List.head?_eq_some_iff.mp h
      exact List.takeWhile_cons_of_neg (by decide)
  unfold cut
  rw [List.takeWhile_append, hrest, List.append_nil]
  split
  · rename_i hall
    exact ((List.takeWhile_prefix _).eq_of_length hall).symm
  · rfl

theorem ofHost_eq_some {text : List Char} {p : UInt16} {host : Ip} :
    Address.ofHost net text p = some ⟨host, p⟩ ↔ Ip.parse net text = some host := by
  unfold Address.ofHost
  rw [Option.map_eq_some_iff]
  constructor
  · rintro ⟨host', h, heq⟩
    obtain rfl : host' = host := congrArg Address.host heq
    exact h
  · exact fun h => ⟨host, h, rfl⟩

theorem ofHost_eq_none {text : List Char} {p : UInt16} :
    Address.ofHost net text p = none ↔ Ip.parse net text = none := Option.map_eq_none_iff

theorem findSome?_serverOf {ls : List (List Char)} {host : Ip} :
    ls.findSome? (serverOf net) = some ⟨host, 53⟩ ↔ FirstAccepted net ls host := by
  rw [List.findSome?_eq_some_iff]
  constructor
  · rintro ⟨pre, line, post, hls, hline, hpre⟩
    by_cases hns : nameserver <+: line
    · obtain ⟨text, rfl⟩ := hns
      rw [serverOf_nameserver, ofHost_eq_some] at hline
      refine ⟨pre, text, post, hls, fun text' hmem => ?_, hline⟩
      have hnone := hpre _ hmem
      rwa [serverOf_nameserver, ofHost_eq_none] at hnone
    · rw [serverOf_other net hns] at hline
      cases hline
  · rintro ⟨pre, text, post, hls, hpre, htext⟩
    refine ⟨pre, _, post, hls, ?_, fun line hmem => ?_⟩
    · rw [serverOf_nameserver, ofHost_eq_some]
      exact htext
    · by_cases hns : nameserver <+: line
      · obtain ⟨text', rfl⟩ := hns
        rw [serverOf_nameserver, ofHost_eq_none]
        exact hpre text' hmem
      · exact serverOf_other net hns

/-- a file without name servers -/
theorem findSome?_serverOf_none {ls : List (List Char)}
    (h : ∀ line ∈ ls, ¬ nameserver <+: line) : ls.findSome? (serverOf net) = none :=
  List.findSome?_eq_none_iff.mpr fun line hmem => serverOf_other net (h line hmem)

/-- The server of a file with a first name server. -/
theorem findSome?_serverOf_first {X : List Char} {later : List (List Char)}
    (h : IsFirstServer content X later) :
    (lines content).findSome? (serverOf net) =
      (Address.ofHost net (cut X) 53).or (later.findSome? (serverOf net)) := by
  obtain ⟨pre, rest, hlines, hpre, hrest⟩ := h
  rw [hlines, List.findSome?_append, findSome?_serverOf_none hpre, Option.none_or,
    List.findSome?_cons, serverOf_nameserver, cut_append hrest]
  cases Address.ofHost net (cut X) 53 <;> rfl

/-- What `InitDNS` does with a file of at most 4095 bytes. -/
theorem initDNS_of_loads (hload : LoadsFile load content) (hlen : content.length ≤ 4095) :
    initDNS net load = some (((lines content).findSome? (serverOf net)).getD .unset) := by
  refine initDNS_eq ?_
  rw [hload, List.take_of_length_le hlen]

/-- The server that is set, if it is not the invalid address. -/
theorem initDNS_eq_host (hload : LoadsFile load content) (hlen : content.length ≤ 4095)
    {host : Ip} :
    initDNS net load = some ⟨host, 53⟩ ↔
      (lines content).findSome? (serverOf net) = some ⟨host, 53⟩ := by
  rw [initDNS_of_loads hload hlen, Option.some_inj]
  cases (lines content).findSome? (serverOf net) with
  | none =>
    refine iff_of_false (fun h => ?_) nofun
    have hport : (0 : UInt16) = 53 := congrArg Address.port h
    exact absurd hport (by decide)
  | some dns => exact Option.some_inj.symm

/-- A first name server with an IPv4 address is set. -/
theorem initDNS_dotted (h4 : net.ReadsDotted) (hload : LoadsFile load content)
    (hlen : content.length ≤ 4095) {a : Fin 4 → UInt8} {later : List (List Char)}
    (h : IsFirstServer content (dottedText a) later) :
    initDNS net load = some ⟨Ip.ofV4 (ntohl a), 53⟩ := by
  rw [initDNS_eq_host hload hlen, findSome?_serverOf_first h, cut_dottedText, Option.or_eq_some_iff,
    ofHost_eq_some]
  exact .inl (Ip.parse_dottedText h4 a)

/-- **The name server of the system is set** if and only if the cut does no harm to its address. -/
theorem setsServer_iff (hload : LoadsFile load content) (hlen : content.length ≤ 4095) :
    SetsServer net load content ↔ CutHarmless net content := by
  have hfirst : ∀ X later host, IsFirstServer content X later →
      (initDNS net load = some ⟨host, 53⟩ ↔ Ip.parse net (cut X) = some host ∨
        (Ip.parse net (cut X) = none ∧ FirstAccepted net later host)) := by
    intro X later host h
    rw [initDNS_eq_host hload hlen, findSome?_serverOf_first h, Option.or_eq_some_iff,
      ofHost_eq_some, ofHost_eq_none, findSome?_serverOf]
  constructor
  · intro h X later host hX hhost
    exact (hfirst X later host hX).mp (h.found X later host hX hhost)
  · intro h
    refine ⟨fun X later host hX hhost => (hfirst X later host hX).mpr (h X later host hX hhost),
      fun hnone => ?_, ?_⟩
    · rw [initDNS_of_loads hload hlen, findSome?_serverOf_none hnone]
      exact ⟨.unset, rfl, by decide⟩
    · rw [initDNS_of_loads hload hlen]
      rfl

end

/-- A file with the name server 10.0.0.1 in its second line. -/
def lanConf : List UInt8 :=
  "search lan\nnameserver 10.0.0.1\n".toList.map fun c => UInt8.ofNat c.toNat

/-- The name server 10.0.0.1 is set. -/
theorem setsServer_iff_lan :
    SetsServer .standard (fun n => some (lanConf.take n)) lanConf := by
  refine (setsServer_iff (fun _ => rfl) (by decide)).mpr fun X later host hX hhost => .inl ?_
  obtain ⟨pre, rest, hlines, _, _⟩ := hX
  have hmem : nameserver ++ (X ++ rest) ∈ lines lanConf := by
    rw [hlines]
    exact List.mem_append_right _ List.mem_cons_self
  have hall : ∀ line ∈ lines lanConf, nameserver <+: line →
      (line.drop nameserver.length).all inAddress = true := by decide
  have hplain := hall _ hmem (List.prefix_append _ _)
  rw [List.drop_left, List.all_eq_true] at hplain
  rwa [cut_eq_self fun c hc => hplain c (List.mem_append_left _ hc)]

/-- A file with the name server 1:2:3:4:5:6:7:8a. -/
def hexConf : List UInt8 :=
  "nameserver 1:2:3:4:5:6:7:8a\n".toList.map fun c => UInt8.ofNat c.toNat

/-- The server that is set is 1:2:3:4:5:6:7:8. -/
theorem hexConf_cut : ¬ ∀ net content load, LoadsFile load content → content.length ≤ 4095 →
    SetsServer net load content := by
  intro hall
  have hload : LoadsFile (fun n => some (hexConf.take n)) hexConf := fun _ => rfl
  have hlen : hexConf.length ≤ 4095 := by decide
  have hfirst : IsFirstServer hexConf (groupText ![1, 2, 3, 4, 5, 6, 7, 0x8a]) [[]] :=
    ⟨[], [], by decide, nofun, .inl rfl⟩
  have hcut :
      cut (groupText ![1, 2, 3, 4, 5, 6, 7, 0x8a]) = groupText ![1, 2, 3, 4, 5, 6, 7, 8] := by
    decide
  have hset := (hall .standard hexConf _ hload hlen).found _ _ _ hfirst
    (Ip.parse_groupText InetPton.standard_groups _)
  rw [initDNS_eq_host hload hlen, findSome?_serverOf_first hfirst, hcut, Option.or_eq_some_iff,
    ofHost_eq_some, ofHost_eq_none, Ip.parse_groupText InetPton.standard_groups] at hset
  rcases hset with hset | hset
  · exact absurd (congrArg (Option.map Ip.q3) hset) (by decide)
  · cases hset.1

end Setka

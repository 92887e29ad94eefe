import Setka.Net.Address

/-!
# DNS lookup requests

`dns::Resolver` is the record of one active lookup.  Pointers to dns_resolver objects, pointers to
`Resolver` records and iterators are identities (natural numbers); a new record or node gets an
identity that was not used before.
-/

namespace Setka

abbrev Bytes := List UInt8

/-- `D_DNSRecordA` -/
def recordA : UInt16 := 1

/-- `D_DNSRecordAAAA` -/
def recordAAAA : UInt16 := 28

inductive DnsResult where
  | ok
  | timeout
  | notFound
  | dnsError
  | error
deriving DecidableEq, Repr

/-- the two time maps `resolversByTime1` and `resolversByTime2` of a lookup thread -/
inductive TimeMap where
  | byTime1
  | byTime2
deriving DecidableEq, Repr

def TimeMap.other : TimeMap → TimeMap
  | .byTime1 => .byTime2
  | .byTime2 => .byTime1

/-- the arguments of `dns_resolver::resolve()`, with the object it is called on -/
structure Query where
  hnr : ℕ
  hostName : Bytes
  timeoutMillis : UInt32
  dnsIP : Address
deriving DecidableEq, Repr

/-- `dns::Resolver`.  `addr` is the address of the record itself; the iterators are the nodes they
point to, and `sendIter = none` is `sendList.end()`. -/
structure Resolver where
  addr : ℕ
  hnr : ℕ
  hostName : Bytes
  recordType : UInt16
  timeMap : TimeMap
  timeMapIter : ℕ
  id : UInt16
  idIter : ℕ
  sendIter : Option ℕ
  dns : Address
deriving DecidableEq, Repr

end Setka

import OrbitRelay.Text

/-!
# IP addresses

The addresses of `core::net`, and the parser behind `str::parse::<IpAddr>`. A reader
gives what it read and the text behind it, or nothing and leaves the text as it was.
-/
namespace Net

open Text

/-- `Ipv4Addr`, its four octets. -/
abbrev Ipv4Addr := Vector UInt8 4

/-- `Ipv6Addr`, its eight segments. -/
abbrev Ipv6Addr := Vector UInt16 8

inductive IpAddr where
  | v4 (octets : Ipv4Addr)
  | v6 (segments : Ipv6Addr)
  deriving DecidableEq

/-- `IpAddr::is_unspecified`. -/
def IpAddr.isUnspecified : IpAddr → Bool
  | .v4 octets => octets = #v[0, 0, 0, 0]
  | .v6 segments => segments = #v[0, 0, 0, 0, 0, 0, 0, 0]

/-- `IpAddr::is_loopback`. -/
def IpAddr.isLoopback : IpAddr → Bool
  | .v4 octets => octets[0] = 127
  | .v6 segments => segments = #v[0, 0, 0, 0, 0, 0, 0, 1]

def IpAddr.localhost : IpAddr := .v4 #v[127, 0, 0, 1]

def IpAddr.localhostV6 : IpAddr := .v6 #v[0, 0, 0, 0, 0, 0, 0, 1]

/-- `SocketAddr`, without the flow and the scope of its sixth version. -/
structure SocketAddr where
  ip : IpAddr
  port : UInt16
  deriving DecidableEq

/-! ## The parser -/

/-- `char::to_digit`. -/
def toDigit (radix : Nat) (c : Char) : Option Nat :=
  let value :=
    if '0' ≤ c ∧ c ≤ '9' then c.toNat - '0'.toNat
    else if 'a' ≤ c ∧ c ≤ 'z' then c.toNat - 'a'.toNat + 10
    else if 'A' ≤ c ∧ c ≤ 'Z' then c.toNat - 'A'.toNat + 10
    else radix
  if value < radix then some value else none

/-- The loop of `read_number`. -/
def readDigits (radix maxDigits result count : Nat) : Str → Option (Nat × Nat × Str)
  | [] => some (result, count, [])
  | c :: rest =>
    match toDigit radix c with
    | none => some (result, count, c :: rest)
    | some digit =>
      if count + 1 > maxDigits then none
      else readDigits radix maxDigits (result * radix + digit) (count + 1) rest

/-- `read_number`, for numbers up to `bound`. -/
def readNumber (radix maxDigits : Nat) (allowZeroPrefix : Bool) (bound : Nat) (s : Str) : Option (Nat × Str) := do
  let (result, count, rest) ← readDigits radix maxDigits 0 0 s
  if count = 0 then none
  else if allowZeroPrefix = false ∧ s.head? = some '0' ∧ count > 1 then none
  else if result ≤ bound then some (result, rest)
  else none

def readGivenChar (target : Char) : Str → Option Str
  | [] => none
  | c :: rest => if c = target then some rest else none

/-- `read_separator`. -/
def readSeparator {α : Type} (sep : Char) (index : Nat) (inner : Str → Option (α × Str)) (s : Str) :
    Option (α × Str) :=
  if index > 0 then (readGivenChar sep s).bind inner else inner s

def readOctet (index : Nat) (s : Str) : Option (Nat × Str) :=
  readSeparator '.' index (readNumber 10 3 false 255) s

def readIpv4Addr (s : Str) : Option (Ipv4Addr × Str) := do
  let (a, s) ← readOctet 0 s
  let (b, s) ← readOctet 1 s
  let (c, s) ← readOctet 2 s
  let (d, s) ← readOctet 3 s
  some (#v[a.toUInt8, b.toUInt8, c.toUInt8, d.toUInt8], s)

/-- `u16::from_be_bytes`. -/
def fromBeBytes (a b : UInt8) : UInt16 := a.toUInt16 * 256 + b.toUInt16

/-- `read_groups`: the groups from `index` on, with a place for `slots` more, and whether an
IPv4 address was the last of them. -/
def readGroups : Nat → Nat → Str → List UInt16 × Bool × Str
  | 0, _, s => ([], false, s)
  | slots + 1, index, s =>
    match if slots > 0 then readSeparator ':' index readIpv4Addr s else none with
    | some (octets, rest) => ([fromBeBytes octets[0] octets[1], fromBeBytes octets[2] octets[3]], true, rest)
    | none =>
      match readSeparator ':' index (readNumber 16 4 true 65535) s with
      | none => ([], false, s)
      | some (group, rest) =>
        let (groups, ipv4, rest) := readGroups slots (index + 1) rest
        (group.toUInt16 :: groups, ipv4, rest)

def readIpv6Addr (s : Str) : Option (Ipv6Addr × Str) :=
  let (head, headIpv4, rest) := readGroups 8 0 s
  if head.length = 8 then some (Vector.ofFn fun i => head.getD i 0, rest)
  else if headIpv4 = true then none
  else do
    let rest ← readGivenChar ':' rest
    let rest ← readGivenChar ':' rest
    let (tail, _, rest) := readGroups (8 - (head.length + 1)) 0 rest
    let groups := head ++ List.replicate (8 - head.length - tail.length) 0 ++ tail
    some (Vector.ofFn fun i => groups.getD i 0, rest)

def readIpAddr (s : Str) : Option (IpAddr × Str) :=
  ((readIpv4Addr s).map fun (octets, rest) => (.v4 octets, rest)).or
    ((readIpv6Addr s).map fun (segments, rest) => (.v6 segments, rest))

/-- `str::parse::<IpAddr>`. -/
def parseIpAddr (s : Str) : Option IpAddr :=
  match readIpAddr s with
  | some (address, []) => some address
  | _ => none

example : parseIpAddr "::ffff:127.0.0.1".toList = some (.v6 #v[0, 0, 0, 0, 0, 65535, 32512, 1]) := by decide +kernel

end Net

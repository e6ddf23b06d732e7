import SelendraBridge.SigStore.Policy

/-!
# Addresses and networks

The addresses of the API's clients and proxies, as the standard library reads and writes them: four
numbers with dots, or eight groups with colons, of which one run of zeros may be left out and the
last two written as the first kind. Both kinds are one where an address of the second stands for one
of the first (`SelendraBridge.Api.canonical`).
-/

namespace SelendraBridge

namespace Api

open SigStore (trim split splitOnce)

/-- `IpAddr`. -/
inductive IpAddr
  | v4 (a : BitVec 32)
  | v6 (a : BitVec 128)
  deriving DecidableEq

/-! ### Reading -/

/-- `char::to_digit`, for the radices in use. -/
def toDigit (radix : ℕ) (c : Char) : Option ℕ :=
  let n :=
    if '0' ≤ c ∧ c ≤ '9' then c.toNat - 48
    else if 'a' ≤ c ∧ c ≤ 'z' then c.toNat - 87
    else if 'A' ≤ c ∧ c ≤ 'Z' then c.toNat - 55
    else radix
  if n < radix then some n else none

/-- `read_number`: a number below a bound, in no more than so many digits. -/
def readNumber (radix : ℕ) (maxDigits : Option ℕ) (allowZeroPrefix : Bool) (bound : ℕ) (s : Text) :
    Option (ℕ × Text) :=
  let digits := s.takeWhile fun c => (toDigit radix c).isSome
  let value := (digits.filterMap (toDigit radix)).foldl (fun n d => radix * n + d) 0
  if digits = [] then none
  else if maxDigits.any (fun m => decide (m < digits.length)) = true then none
  else if allowZeroPrefix = false ∧ s.head? = some '0' ∧ 1 < digits.length then none
  else if bound ≤ value then none
  else some (value, s.drop digits.length)

/-- `read_given_char`. -/
def readGivenChar (c : Char) : Text → Option Text
  | [] => none
  | d :: s => if d = c then some s else none

/-- `read_separator`: a separator before all but the first. -/
def readSeparator {α : Type} (c : Char) (index : ℕ) (inner : Text → Option (α × Text)) (s : Text) :
    Option (α × Text) :=
  if index = 0 then inner s else (readGivenChar c s).bind inner

/-- One number of an IPv4 address. -/
def readOctet : Text → Option (ℕ × Text) := readNumber 10 (some 3) false 256

/-- `read_ipv4_addr`. -/
def readIpv4 (s : Text) : Option (BitVec 32 × Text) := do
  let (a, s) ← readOctet s
  let (b, s) ← readSeparator '.' 1 readOctet s
  let (c, s) ← readSeparator '.' 2 readOctet s
  let (d, s) ← readSeparator '.' 3 readOctet s
  return (BitVec.ofNat 32 (((a * 256 + b) * 256 + c) * 256 + d), s)

/-- `read_groups`, into so many slots from one on: the groups, and whether the last two were an IPv4
address. -/
def readGroups : ℕ → ℕ → Text → List ℕ × Bool × Text
  | 0, _, s => ([], false, s)
  | slots + 1, index, s =>
    match if 1 ≤ slots then readSeparator ':' index readIpv4 s else none with
    | some (a, rest) => ([a.toNat / 65536, a.toNat % 65536], true, rest)
    | none =>
      match readSeparator ':' index (readNumber 16 (some 4) true 65536) s with
      | some (group, rest) =>
        let r := readGroups slots (index + 1) rest
        (group :: r.1, r.2.1, r.2.2)
      | none => ([], false, s)

/-- An address of eight groups. -/
def ofGroups (groups : List ℕ) : BitVec 128 :=
  BitVec.ofNat 128 (groups.foldl (fun n g => n * 65536 + g) 0)

/-- `read_ipv6_addr`. -/
def readIpv6 (s : Text) : Option (BitVec 128 × Text) :=
  let head := readGroups 8 0 s
  if head.1.length = 8 then some (ofGroups head.1, head.2.2)
  else if head.2.1 = true then none
  else do
    let s ← readGivenChar ':' head.2.2
    let s ← readGivenChar ':' s
    let tail := readGroups (8 - (head.1.length + 1)) 0 s
    let zeros := List.replicate (8 - head.1.length - tail.1.length) 0
    return (ofGroups (head.1 ++ zeros ++ tail.1), tail.2.2)

/-- What is left is nothing. -/
def whole {α : Type} : Option (α × Text) → Option α
  | some (a, []) => some a
  | _ => none

/-- `str::parse::<IpAddr>`. -/
def parseIp (s : Text) : Option IpAddr :=
  match readIpv4 s with
  | some (a, rest) => whole (some (.v4 a, rest))
  | none => whole ((readIpv6 s).map fun r => (.v6 r.1, r.2))

/-- `read_port`. -/
def readPort (s : Text) : Option (ℕ × Text) := do
  let s ← readGivenChar ':' s
  readNumber 10 none true 65536 s

/-- `read_scope_id`, if there is one. -/
def readScope (s : Text) : Text :=
  match (readGivenChar '%' s).bind (readNumber 10 none true 4294967296) with
  | some (_, rest) => rest
  | none => s

/-- `read_socket_addr_v4`. -/
def readSocketV4 (s : Text) : Option (IpAddr × Text) := do
  let (a, s) ← readIpv4 s
  let (_, s) ← readPort s
  return (.v4 a, s)

/-- `read_socket_addr_v6`. -/
def readSocketV6 (s : Text) : Option (IpAddr × Text) := do
  let s ← readGivenChar '[' s
  let (a, s) ← readIpv6 s
  let s ← readGivenChar ']' (readScope s)
  let (_, s) ← readPort s
  return (.v6 a, s)

/-- The address of `str::parse::<SocketAddr>`. -/
def parseSocket (s : Text) : Option IpAddr := whole ((readSocketV4 s).or (readSocketV6 s))

/-! ### Writing -/

/-- Pieces with a character between them. -/
def joinWith (c : Char) : List Text → Text
  | [] => []
  | [s] => s
  | s :: rest => s ++ c :: joinWith c rest

/-- The groups of an address. -/
def groupsOf (a : BitVec 128) : List ℕ :=
  (List.range 8).map fun i => (a.toNat >>> (16 * (7 - i))) % 65536

/-- The first longest run of zeros, as where it begins and how long it is: what comes after the ones
looked at, given the longest so far and the one that goes on. -/
def longestRun (index : ℕ) (longest current : ℕ × ℕ) : List ℕ → ℕ × ℕ
  | [] => longest
  | g :: rest =>
    if g = 0 then
      let current := (if current.2 = 0 then index else current.1, current.2 + 1)
      longestRun (index + 1) (if longest.2 < current.2 then current else longest) current rest
    else longestRun (index + 1) longest (0, 0) rest

/-- Groups in hexadecimal. -/
def writeGroups (groups : List ℕ) : Text := joinWith ':' (groups.map (Nat.toDigits 16))

/-- `Ipv4Addr::fmt`. -/
def writeIpv4 (a : BitVec 32) : Text :=
  joinWith '.' ((List.range 4).map fun i => decimalText ((a.toNat >>> (8 * (3 - i))) % 256))

/-- `to_ipv4_mapped`. -/
def toIpv4Mapped (a : BitVec 128) : Option (BitVec 32) :=
  if a.toNat / 4294967296 = 65535 then some (a.setWidth 32) else none

/-- `Ipv6Addr::fmt`. -/
def writeIpv6 (a : BitVec 128) : Text :=
  match toIpv4Mapped a with
  | some b => [':', ':', 'f', 'f', 'f', 'f', ':'] ++ writeIpv4 b
  | none =>
    let groups := groupsOf a
    let run := longestRun 0 (0, 0) (0, 0) groups
    if 1 < run.2 then
      writeGroups (groups.take run.1) ++ [':', ':'] ++ writeGroups (groups.drop (run.1 + run.2))
    else writeGroups groups

/-- `IpAddr::to_string`. -/
def IpAddr.toText : IpAddr → Text
  | v4 a => writeIpv4 a
  | v6 a => writeIpv6 a

/-- `canonical`. -/
def canonical : IpAddr → IpAddr
  | .v6 a =>
    match toIpv4Mapped a with
    | some b => .v4 b
    | none => .v6 a
  | .v4 a => .v4 a

@[simp] theorem canonical_canonical (ip : IpAddr) : canonical (canonical ip) = canonical ip := by
  cases ip with
  | v4 a => rfl
  | v6 a =>
    rcases h : toIpv4Mapped a with _ | b
    · have hsame : canonical (.v6 a) = .v6 a := by rw [canonical, h]
      rw [hsame, hsame]
    · have hmapped : canonical (.v6 a) = .v4 b := by rw [canonical, h]
      rw [hmapped, canonical]

/-! ### Networks -/

/-- How many bits an address has. -/
def IpAddr.width : IpAddr → ℕ
  | v4 _ => 32
  | v6 _ => 128

/-- `Cidr`: a network, with no more bits fixed than it has. -/
structure Cidr where
  net : IpAddr
  fixed : ℕ
  fits : fixed ≤ net.width

/-- The mask of a network: so many bits of a width. -/
def mask (w fixed : ℕ) : BitVec w := if fixed = 0 then 0 else BitVec.allOnes w <<< (w - fixed)

/-- `Cidr::contains`. -/
def Cidr.contains (c : Cidr) (ip : IpAddr) : Bool :=
  match c.net, canonical ip with
  | .v4 n, .v4 a => n &&& mask 32 c.fixed == a &&& mask 32 c.fixed
  | .v6 n, .v6 a => n &&& mask 128 c.fixed == a &&& mask 128 c.fixed
  | _, _ => false

/-- `str::parse::<u8>`: a sign is allowed, if it is a plus. -/
def parseU8 (s : Text) : Option ℕ :=
  let s := match s with
    | '+' :: rest => rest
    | s => s
  if s = [] ∨ s.all Char.isDigit = false then none
  else whole (readNumber 10 none true 256 s)

/-- `Cidr::parse`. -/
def Cidr.parse (s : Text) : Option Cidr := do
  let s := trim s
  let parts := match splitOnce '/' s with
    | some (a, p) => (a, some p)
    | none => (s, none)
  let net := canonical (← parseIp parts.1)
  let fixed ← match parts.2 with
    | some p => parseU8 p
    | none => some net.width
  if h : fixed ≤ net.width then some ⟨net, fixed, h⟩ else none

/-- `TrustedProxies`. -/
abbrev TrustedProxies := List Cidr

/-- `TrustedProxies::parse`. -/
def TrustedProxies.parse (specs : List Text) : Option TrustedProxies :=
  (((specs.flatMap (split fun c => c == ',')).map trim).filter fun p => !p.isEmpty).mapM Cidr.parse

/-- `TrustedProxies::contains`. -/
def TrustedProxies.contains (t : TrustedProxies) (ip : IpAddr) : Bool := t.any fun c => c.contains ip

/-- **Both kinds of an address are trusted alike.** -/
@[simp] theorem TrustedProxies.contains_canonical (t : TrustedProxies) (ip : IpAddr) :
    TrustedProxies.contains t (canonical ip) = TrustedProxies.contains t ip := by
  simp only [TrustedProxies.contains, Cidr.contains, canonical_canonical]

end Api

end SelendraBridge

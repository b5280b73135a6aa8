import TcpVisr.Core

/-!
Names and labels: how endpoints print, and the host names that capture DNS gives them.

A host name reaches a terminal, so the type holds printable ASCII only, and the table that
keeps the names is bounded.
-/

namespace TcpVisr

/-! ### Endpoints as text -/

/-- `Display for Ipv4Addr`. -/
def displayV4 (a : BitVec 32) : String :=
  let octet (i : ℕ) : String := toString (a.toNat / 256 ^ i % 256)
  octet 3 ++ "." ++ octet 2 ++ "." ++ octet 1 ++ "." ++ octet 0

/-- The eight 16-bit groups of a V6 address, first group first. -/
def segments (a : BitVec 128) : List ℕ :=
  (List.range 8).map fun i => a.toNat / 65536 ^ (7 - i) % 65536

/-- `{:x}` of the groups, separated by colons. -/
def fmtSubslice (chunk : List ℕ) : String :=
  ":".intercalate (chunk.map fun s => String.ofList (Nat.toDigits 16 s))

/-- The first longest run of zero groups, as `(start, len)`. -/
def zeroSpan (segs : List ℕ) : ℕ × ℕ :=
  let scan := fun (p : (ℕ × ℕ) × ℕ × ℕ) (x : ℕ × ℕ) =>
    let (longest, current) := p
    if x.1 = 0 then
      let current := (if current.2 = 0 then x.2 else current.1, current.2 + 1)
      (if longest.2 < current.2 then current else longest, current)
    else (longest, (0, 0))
  (segs.zipIdx.foldl scan ((0, 0), (0, 0))).1

/-- `Display for Ipv6Addr`: an IPv4-mapped address prints its V4 part, any other elides its
first longest run of two or more zero groups. -/
def displayV6 (a : BitVec 128) : String :=
  let segs := segments a
  if segs.take 6 = [0, 0, 0, 0, 0, 0xffff] then
    "::ffff:" ++ displayV4 (a.setWidth 32)
  else
    let (start, len) := zeroSpan segs
    if 1 < len then
      fmtSubslice (segs.take start) ++ "::" ++ fmtSubslice (segs.drop (start + len))
    else fmtSubslice segs

/-- `Display for Endpoint`. -/
def Endpoint.display (e : Endpoint) : String :=
  match e.ip with
  | .v4 a => displayV4 a ++ ":" ++ toString e.port.toNat
  | .v6 a => "[" ++ displayV6 a ++ "]:" ++ toString e.port.toNat

/-! ### Host names -/

/-- The longest legal DNS name. -/
def maxHostLen : ℕ := 253

/-- `(0x20..=0x7e).contains(&b)`. -/
def printable (c : Char) : Bool := 0x20 ≤ c.toNat && c.toNat ≤ 0x7e

/-- A host name, fit for a terminal. -/
structure HostName where
  text : List Char
  ne_nil : text ≠ []
  length_le : text.length ≤ maxHostLen
  all_printable : text.all printable
  deriving DecidableEq

/-- How many bytes `c` takes in UTF-8, summed over a text. -/
def byteLen (l : List Char) : ℕ := (l.map Char.utf8Size).sum

lemma length_le_byteLen (l : List Char) : l.length ≤ byteLen l := by
  induction l with
  | nil => simp [byteLen]
  | cons c l ih =>
      have := c.utf8Size_pos
      simp only [byteLen, List.map_cons, List.sum_cons, List.length_cons] at ih ⊢
      omega

/-- `raw.strip_suffix('.').unwrap_or(raw)`. -/
def stripRootDot (raw : List Char) : List Char :=
  if raw.getLast? = some '.' then raw.dropLast else raw

/-- Builds a host name from a raw owner name, or `none` if it is empty, too long, or has no
printable byte. Every byte of a character outside ASCII is at least `0x80`, so dropping bytes
is dropping characters. -/
def HostName.new (raw : List Char) : Option HostName :=
  let trimmed := stripRootDot raw
  if h : trimmed = [] ∨ maxHostLen < byteLen trimmed then none
  else
    let clean := trimmed.filter printable
    if hc : clean = [] then none
    else
      have hlen : clean.length ≤ maxHostLen := by
        have h1 : clean.length ≤ trimmed.length := List.length_filter_le printable trimmed
        have h2 := length_le_byteLen trimmed
        omega
      some ⟨clean, hc, hlen, by simp [clean]⟩

/-- One address-to-name mapping observed in a DNS answer. -/
structure NameObservation where
  ts : Nanos
  ip : IpAddr
  name : HostName
  deriving DecidableEq

/-- The most distinct addresses a `NameTable` retains. -/
def nameTableCap : ℕ := 65536

/-- Latest-wins map from addresses to names, one entry an address, in the order the
addresses were first seen. `dropped` is a `u64` counter. -/
structure NameTable where
  byIp : List (IpAddr × Nanos × HostName) := []
  dropped : ℕ := 0
  deriving DecidableEq

namespace NameTable

/-- `by_ip.get(&ip)`. -/
def get (t : NameTable) (ip : IpAddr) : Option (Nanos × HostName) :=
  (t.byIp.find? fun e => e.1 = ip).map Prod.snd

/-- Records an observation, keeping the greatest-time name of each address, the last seen
among equal times. A new address past the cap is refused and counted. -/
def observe (t : NameTable) (obs : NameObservation) : NameTable :=
  match t.get obs.ip with
  | some slot =>
    if slot.1.ns ≤ obs.ts.ns then
      { t with
        byIp := t.byIp.map fun e => if e.1 = obs.ip then (e.1, obs.ts, obs.name) else e }
    else t
  | none =>
    if nameTableCap ≤ t.byIp.length then { t with dropped := t.dropped + 1 }
    else { t with byIp := t.byIp ++ [(obs.ip, obs.ts, obs.name)] }

/-- The resolved name for `ip`, if any. -/
def resolve (t : NameTable) (ip : IpAddr) : Option HostName := (t.get ip).map Prod.snd

/-- Distinct addresses resolved. -/
def len (t : NameTable) : ℕ := t.byIp.length

end NameTable

end TcpVisr

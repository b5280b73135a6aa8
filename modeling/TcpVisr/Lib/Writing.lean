import TcpVisr.Lib.IpTcp

/-!
Headers as a sender writes them: fields of so many bytes one behind the other.

A field is read at the sum of the widths before it, which for a written header is a number
that computes. From this each header reader, and the stack of them, gives back what was
written, whatever follows.
-/

namespace TcpVisr.Lib.IpTcp

open Readers

/-! ### Fields -/

/-- The last `n` bytes of `v`, big-endian. -/
def bytesOf : ℕ → ℕ → Bytes
  | 0, _ => []
  | n + 1, v => bytesOf n (v / 256) ++ [BitVec.ofNat 8 v]

@[simp] lemma length_bytesOf (n v : ℕ) : (bytesOf n v).length = n := by
  induction n generalizing v with
  | zero => rfl
  | succ n ih => rw [bytesOf, List.length_append, ih, List.length_singleton]

lemma foldl_bytesOf (n v : ℕ) :
    (bytesOf n v).foldl (fun acc x => acc * 256 + x.toNat) 0 = v % 256 ^ n := by
  induction n generalizing v with
  | zero => rw [Nat.pow_zero, Nat.mod_one]; rfl
  | succ n ih =>
      have hmod : v % (256 * 256 ^ n) = v % 256 + 256 * (v / 256 % 256 ^ n) := Nat.mod_mul
      have hpow : 256 ^ (n + 1) = 256 * 256 ^ n := Nat.pow_succ'
      rw [bytesOf, List.foldl_append, ih, List.foldl_cons, List.foldl_nil, BitVec.toNat_ofNat,
        hpow, hmod]
      omega

/-- The widths and values of the fields of a header. -/
abbrev Fields := List (ℕ × ℕ)

def write (fs : Fields) : Bytes := fs.flatMap fun f => bytesOf f.1 f.2

/-- Where field `i` starts. -/
def offset (fs : Fields) (i : ℕ) : ℕ := ((fs.take i).map Prod.fst).sum

lemma length_write (fs : Fields) : (write fs).length = (fs.map Prod.fst).sum := by
  rw [write, List.length_flatMap]
  simp only [length_bytesOf]

/-- **A field is read as it was written.** -/
theorem bigEndian_write {fs : Fields} {i n v : ℕ} (h : fs[i]? = some (n, v)) (rest : Bytes) :
    bigEndian (write fs ++ rest) (offset fs i) n = v % 256 ^ n := by
  obtain ⟨hi, hv⟩ := List.getElem?_eq_some_iff.mp h
  have hsplit : write fs ++ rest =
      write (fs.take i) ++ (bytesOf n v ++ (write (fs.drop (i + 1)) ++ rest)) := by
    conv_lhs => rw [← List.take_append_drop i fs, List.drop_eq_getElem_cons hi, hv]
    simp only [write, List.flatMap_append, List.flatMap_cons, List.append_assoc]
  have hoff : (write (fs.take i)).length = offset fs i := length_write _
  rw [bigEndian, hsplit, ← hoff, List.drop_left, List.take_left' (length_bytesOf n v),
    foldl_bytesOf]

lemma byteAt_eq (b : Bytes) (i : ℕ) : byteAt b i = bigEndian b i 1 := by
  unfold byteAt bigEndian
  cases h : b[i]? with
  | none => rw [List.drop_of_length_le (List.getElem?_eq_none_iff.mp h)]; rfl
  | some x =>
      obtain ⟨hi, rfl⟩ := List.getElem?_eq_some_iff.mp h
      rw [List.drop_eq_getElem_cons hi, List.take_succ_cons, List.take_zero]
      simp

/-- A one-byte field. -/
lemma byteAt_write {fs : Fields} {i v : ℕ} (h : fs[i]? = some (1, v)) (rest : Bytes) :
    byteAt (write fs ++ rest) (offset fs i) = v % 256 := by
  rw [byteAt_eq, bigEndian_write h, Nat.pow_one]

/-- A field of a header that is fields and nothing else. -/
lemma bigEndian_fields {fs : Fields} {i n v : ℕ} (h : fs[i]? = some (n, v)) :
    bigEndian (write fs) (offset fs i) n = v % 256 ^ n := by
  simpa only [List.append_nil] using bigEndian_write h []

lemma byteAt_fields {fs : Fields} {i v : ℕ} (h : fs[i]? = some (1, v)) :
    byteAt (write fs) (offset fs i) = v % 256 := by
  simpa only [List.append_nil] using byteAt_write h []

/-- Two one-byte fields read as one. -/
lemma bigEndian_two {b : Bytes} {i : ℕ} (h : i + 1 < b.length) :
    bigEndian b i 2 = byteAt b i * 256 + byteAt b (i + 1) := by
  have hi : i < b.length := by omega
  have hdrop : b.drop i = b[i] :: b[i + 1] :: b.drop (i + 2) := by
    rw [List.drop_eq_getElem_cons hi, List.drop_eq_getElem_cons h]
  have htake : (b.drop i).take 2 = [b[i], b[i + 1]] := by rw [hdrop]; rfl
  rw [bigEndian, htake, byteAt, byteAt, List.getElem?_eq_getElem h, List.getElem?_eq_getElem hi]
  simp

/-- A reader of a header whose length shows in its first `m` bytes gives back a header it has
the length and the fields of. -/
lemma sized_append {α : Type} {m : ℕ} {len : Bytes → Option ℕ} {f : Bytes → Option α}
    {header : Bytes} {a : α} (hm : m ≤ header.length)
    (hlen : len (header.take m) = some header.length) (hf : f header = some a) (rest : Bytes) :
    sized m len f (header ++ rest) = .done a header.length := by
  have htake : (header ++ rest).take m = header.take m := List.take_append_of_le_length hm
  rw [sized, if_neg (by rw [List.length_append]; omega), htake, hlen]
  simp only
  rw [if_neg (by rw [List.length_append]; omega), List.take_left, hf]

/-! ### Extension headers -/

/-- An extension header of `8 * (units + 1)` bytes, but for the first of them. -/
structure RawExt where
  units : BitVec 8
  body : Bytes
  length_body : body.length = 8 * units.toNat + 6

/-- An authentication header of `4 * (units + 2)` bytes, but for the first of them. -/
structure AuthExt where
  units : BitVec 8
  body : Bytes
  pos : units ≠ 0
  length_body : body.length = 4 * units.toNat + 6

/-- An extension header; the fragment header fragments nothing. -/
inductive Ext
  | destOptions (e : RawExt)
  | route (e : RawExt)
  | fragment (reserved : BitVec 8) (unused : Fin 4) (ident : BitVec 32)
  | auth (e : AuthExt)

/-- The header in front of the protocol `next`. -/
def RawExt.bytes (e : RawExt) (next : ℕ) : Bytes :=
  write [(1, next), (1, e.units.toNat)] ++ e.body

def AuthExt.bytes (e : AuthExt) (next : ℕ) : Bytes :=
  write [(1, next), (1, e.units.toNat)] ++ e.body

lemma RawExt.length_bytes (e : RawExt) (next : ℕ) :
    (e.bytes next).length = (e.units.toNat + 1) * 8 := by
  have hlead : (write [(1, next), (1, e.units.toNat)]).length = 2 := length_write _
  rw [RawExt.bytes, List.length_append, hlead, e.length_body]
  omega

lemma AuthExt.length_bytes (e : AuthExt) (next : ℕ) :
    (e.bytes next).length = (e.units.toNat + 2) * 4 := by
  have hlead : (write [(1, next), (1, e.units.toNat)]).length = 2 := length_write _
  rw [AuthExt.bytes, List.length_append, hlead, e.length_body]
  omega

lemma AuthExt.units_ne (e : AuthExt) : e.units.toNat ≠ 0 :=
  fun h => e.pos (BitVec.eq_of_toNat_eq h)

namespace Ext

def kind : Ext → ℕ
  | destOptions _ => protoDestOptions
  | route _ => protoRoute
  | fragment .. => protoFragment
  | auth _ => protoAuth

/-- The fields of a fragment header. -/
def fragmentFields (next : ℕ) (reserved : BitVec 8) (unused : Fin 4) (ident : BitVec 32) :
    Fields :=
  [(1, next), (1, reserved.toNat), (1, 0), (1, 2 * unused.val), (4, ident.toNat)]

def bytes (next : ℕ) : Ext → Bytes
  | destOptions e | route e => e.bytes next
  | fragment reserved unused ident => write (fragmentFields next reserved unused ident)
  | auth e => e.bytes next

lemma kind_lt (e : Ext) : e.kind < 256 := by
  cases e <;> simp [kind, protoDestOptions, protoRoute, protoFragment, protoAuth]

lemma le_length_bytes (next : ℕ) (e : Ext) : 8 ≤ (e.bytes next).length := by
  cases e with
  | destOptions e | route e =>
      have := e.length_bytes next
      simp only [bytes]
      omega
  | fragment reserved unused ident =>
      exact (length_write (fragmentFields next reserved unused ident)).ge
  | auth e =>
      have := e.length_bytes next
      have := e.units_ne
      simp only [bytes]
      omega

end Ext

section Extensions

variable {next : ℕ} (hnext : next < 256) (rest : Bytes)

include hnext

/-- The first two bytes of an extension header. -/
lemma byteAt_lead (units : BitVec 8) (body : Bytes) :
    byteAt (write [(1, next), (1, units.toNat)] ++ body) 0 = next ∧
      byteAt (write [(1, next), (1, units.toNat)] ++ body) 1 = units.toNat := by
  have hn := @byteAt_write [(1, next), (1, units.toNat)] 0 next rfl body
  have hu := @byteAt_write [(1, next), (1, units.toNat)] 1 units.toNat rfl body
  rw [Nat.mod_eq_of_lt hnext] at hn
  rw [Nat.mod_eq_of_lt units.isLt] at hu
  exact ⟨hn, hu⟩

lemma readRawExt_bytes (e : RawExt) :
    readRawExt (e.bytes next ++ rest) = .done next (e.bytes next).length := by
  obtain ⟨hn, hu⟩ := byteAt_lead hnext e.units e.body
  have hlen := e.length_bytes next
  refine sized_append (by omega) ?_ ?_ rest
  · rw [byteAt_take (by omega), hlen, RawExt.bytes, hu]
  · rw [RawExt.bytes, hn]

lemma readAuth_bytes (e : AuthExt) :
    readAuth (e.bytes next ++ rest) = .done next (e.bytes next).length := by
  obtain ⟨hn, hu⟩ := byteAt_lead hnext e.units e.body
  have hlen := e.length_bytes next
  refine sized_append (by omega) ?_ ?_ rest
  · rw [byteAt_take (by omega), hlen, AuthExt.bytes, hu, if_neg e.units_ne]
  · rw [AuthExt.bytes, hn]

lemma readFragment_bytes (reserved : BitVec 8) (unused : Fin 4) (ident : BitVec 32) :
    readFragment (write (Ext.fragmentFields next reserved unused ident) ++ rest) =
      .done next (write (Ext.fragmentFields next reserved unused ident)).length := by
  have hlen : (write (Ext.fragmentFields next reserved unused ident)).length = 8 :=
    length_write _
  have h0 : byteAt (write (Ext.fragmentFields next reserved unused ident)) 0 = next % 256 :=
    byteAt_fields (i := 0) rfl
  have h2 : byteAt (write (Ext.fragmentFields next reserved unused ident)) 2 = 0 % 256 :=
    byteAt_fields (i := 2) rfl
  have h3 : byteAt (write (Ext.fragmentFields next reserved unused ident)) 3 =
      2 * unused.val % 256 := byteAt_fields (i := 3) rfl
  have hunused := unused.isLt
  refine sized_append hlen.ge (congrArg some hlen.symm) ?_ rest
  rw [bigEndian_two (by omega), h0, h2, h3, if_neg (by omega), Nat.mod_eq_of_lt hnext]

/-- An extension header is read by its own reader. -/
lemma exists_extension (e : Ext) : ∃ p, extension e.kind = some p ∧
    p (e.bytes next ++ rest) = .done next (e.bytes next).length := by
  cases e with
  | destOptions e => exact ⟨readRawExt, rfl, readRawExt_bytes hnext rest e⟩
  | route e => exact ⟨readRawExt, rfl, readRawExt_bytes hnext rest e⟩
  | fragment reserved unused ident =>
      exact ⟨readFragment, rfl, readFragment_bytes hnext rest reserved unused ident⟩
  | auth e => exact ⟨readAuth, rfl, readAuth_bytes hnext rest e⟩

end Extensions

/-- The protocol that the header in front of a chain names. -/
def firstKind : List Ext → ℕ
  | [] => protoTcp
  | e :: _ => e.kind

/-- A chain of extension headers in front of TCP. -/
def chainBytes : List Ext → Bytes
  | [] => []
  | e :: es => e.bytes (firstKind es) ++ chainBytes es

lemma firstKind_lt (es : List Ext) : firstKind es < 256 := by
  cases es with
  | nil => decide
  | cons e es => exact e.kind_lt

lemma le_length_chainBytes (es : List Ext) : 8 * es.length ≤ (chainBytes es).length := by
  induction es with
  | nil => exact Nat.zero_le _
  | cons e es ih =>
      have he := e.le_length_bytes (firstKind es)
      rw [chainBytes, List.length_append, List.length_cons]
      omega

/-- The chain is read to the protocol behind it. -/
lemma readChain_bytes (es : List Ext) {n : ℕ} (hn : es.length < n) (rest : Bytes) :
    readChain n (firstKind es) (chainBytes es ++ rest) =
      .done protoTcp (chainBytes es).length := by
  induction es generalizing n with
  | nil =>
      obtain ⟨n, rfl⟩ := Nat.exists_eq_add_of_le' hn
      rfl
  | cons e es ih =>
      obtain ⟨n, rfl⟩ := Nat.exists_eq_add_of_le' (Nat.one_le_of_lt hn)
      obtain ⟨p, hp, hread⟩ := exists_extension (firstKind_lt es) (chainBytes es ++ rest) e
      rw [List.length_cons] at hn
      rw [firstKind, readChain, hp, chainBytes, List.append_assoc, List.length_append]
      refine seq_eq_done.mpr ⟨firstKind es, _, _, hread, ?_, rfl⟩
      rw [List.drop_left]
      exact ih (by omega)

lemma firstKind_ne_hopByHop (es : List Ext) : firstKind es ≠ protoHopByHop := by
  cases es with
  | nil => decide
  | cons e es =>
      cases e <;> simp [firstKind, Ext.kind, protoHopByHop, protoDestOptions, protoRoute,
        protoFragment, protoAuth]

/-! ### IP and TCP headers -/

/-- A field as wide as its value. -/
lemma ofNat_field {w n : ℕ} (x : BitVec w) (h : 256 ^ n = 2 ^ w) :
    BitVec.ofNat w (x.toNat % 256 ^ n) = x := by
  rw [h, Nat.mod_eq_of_lt x.isLt, BitVec.ofNat_toNat, BitVec.setWidth_eq]

/-- An IPv4 header that fragments nothing, and an authentication header behind it. -/
structure V4 where
  tos : BitVec 8
  ident : BitVec 16
  /-- The reserved bit and "don't fragment". -/
  bits : Fin 4
  ttl : BitVec 8
  checksum : BitVec 16
  source : BitVec 32
  destination : BitVec 32
  words : Fin 11
  options : Bytes
  length_options : options.length = 4 * words.val
  auth : Option AuthExt

/-- An IPv6 header, and the extension headers behind it. -/
structure V6 where
  traffic : BitVec 28
  hopLimit : BitVec 8
  source : BitVec 128
  destination : BitVec 128
  hopByHop : Option RawExt
  exts : List Ext

namespace V4

def fixed (h : V4) : ℕ := 20 + 4 * h.words.val

def next (h : V4) : ℕ := if h.auth.isSome then protoAuth else protoTcp

def behind (h : V4) : Bytes := (h.auth.map fun e => e.bytes protoTcp).getD []

/-- The fields in front of `n` bytes. -/
def fields (h : V4) (n : ℕ) : Fields :=
  [(1, 69 + h.words.val), (1, h.tos.toNat), (2, h.fixed + n), (2, h.ident.toNat),
    (2, h.bits.val * 2 ^ 14), (1, h.ttl.toNat), (1, h.next), (2, h.checksum.toNat),
    (4, h.source.toNat), (4, h.destination.toNat)]

def bytes (h : V4) (n : ℕ) : Bytes := write (h.fields n) ++ h.options

def header (h : V4) (n : ℕ) : IpHeader :=
  .v4 h.fixed h.source h.destination (BitVec.ofNat 16 (h.fixed + n)) h.next

lemma length_bytes (h : V4) (n : ℕ) : (h.bytes n).length = h.fixed := by
  have hlead : (write (h.fields n)).length = 20 := length_write _
  rw [bytes, List.length_append, hlead, h.length_options, fixed]

lemma next_lt (h : V4) : h.next < 256 := by
  unfold next
  split <;> decide

lemma readIp_bytes (h : V4) {n : ℕ} (hn : h.fixed + n < 2 ^ 16) (rest : Bytes) :
    readIp (h.bytes n ++ rest) = .done (h.header n) h.fixed := by
  have hlen := h.length_bytes n
  have hwords := h.words.isLt
  have hbits := h.bits.isLt
  have h0 : byteAt (h.bytes n) 0 = (69 + h.words.val) % 256 := byteAt_write (i := 0) rfl _
  have h2 : bigEndian (h.bytes n) 2 2 = (h.fixed + n) % 256 ^ 2 := bigEndian_write (i := 2) rfl _
  have h6 : bigEndian (h.bytes n) 6 2 = h.bits.val * 2 ^ 14 % 256 ^ 2 :=
    bigEndian_write (i := 4) rfl _
  have h9 : byteAt (h.bytes n) 9 = h.next % 256 := byteAt_write (i := 6) rfl _
  have h12 : bigEndian (h.bytes n) 12 4 = h.source.toNat % 256 ^ 4 :=
    bigEndian_write (i := 8) rfl _
  have h16 : bigEndian (h.bytes n) 16 4 = h.destination.toNat % 256 ^ 4 :=
    bigEndian_write (i := 9) rfl _
  rw [← hlen]
  refine sized_append (by rw [hlen, fixed]; omega) ?_ ?_ rest
  · unfold ipHeaderLen
    rw [byteAt_take Nat.one_pos, h0, hlen, fixed]
    simp only
    rw [if_pos (by omega), if_pos (by omega)]
    congr 1
    omega
  · unfold ipFields
    rw [h0, h6, h2, h12, h16, h9, hlen, if_pos (by omega), if_neg (by omega),
      if_neg (by rw [Nat.mod_eq_of_lt (by omega)]; omega), ofNat_field _ (by norm_num),
      ofNat_field _ (by norm_num), Nat.mod_eq_of_lt h.next_lt, Nat.mod_eq_of_lt (by omega)]
    rfl

lemma readExtensions_behind (h : V4) (n : ℕ) (rest : Bytes) :
    readExtensions (h.header n) (h.behind ++ rest) = .done protoTcp h.behind.length := by
  unfold readExtensions header behind next
  cases h.auth with
  | none => rfl
  | some e => exact readAuth_bytes (by decide) rest e

end V4

namespace V6

def next (h : V6) : ℕ := if h.hopByHop.isSome then protoHopByHop else firstKind h.exts

def behind (h : V6) : Bytes :=
  (h.hopByHop.map fun e => e.bytes (firstKind h.exts)).getD [] ++ chainBytes h.exts

/-- The fields in front of `n` bytes. The version stands before the traffic class. -/
def fields (h : V6) (n : ℕ) : Fields :=
  [(1, 96 + h.traffic.toNat / 2 ^ 24), (3, h.traffic.toNat), (2, n), (1, h.next),
    (1, h.hopLimit.toNat), (16, h.source.toNat), (16, h.destination.toNat)]

def bytes (h : V6) (n : ℕ) : Bytes := write (h.fields n)

def header (h : V6) (n : ℕ) : IpHeader :=
  .v6 h.source h.destination (BitVec.ofNat 16 n) h.next

lemma length_bytes (h : V6) (n : ℕ) : (h.bytes n).length = 40 := length_write _

lemma next_lt (h : V6) : h.next < 256 := by
  unfold next
  split
  · decide
  · exact firstKind_lt h.exts

lemma readIp_bytes (h : V6) {n : ℕ} (hpos : 0 < n) (hn : n < 2 ^ 16) (rest : Bytes) :
    readIp (h.bytes n ++ rest) = .done (h.header n) 40 := by
  have hlen := h.length_bytes n
  have htraffic := h.traffic.isLt
  have h0 : byteAt (h.bytes n) 0 = (96 + h.traffic.toNat / 2 ^ 24) % 256 :=
    byteAt_fields (i := 0) rfl
  have h4 : bigEndian (h.bytes n) 4 2 = n % 256 ^ 2 := bigEndian_fields (i := 2) rfl
  have h6 : byteAt (h.bytes n) 6 = h.next % 256 := byteAt_fields (i := 3) rfl
  have h8 : bigEndian (h.bytes n) 8 16 = h.source.toNat % 256 ^ 16 :=
    bigEndian_fields (i := 5) rfl
  have h24 : bigEndian (h.bytes n) 24 16 = h.destination.toNat % 256 ^ 16 :=
    bigEndian_fields (i := 6) rfl
  rw [← hlen]
  refine sized_append (by omega) ?_ ?_ rest
  · unfold ipHeaderLen
    rw [byteAt_take Nat.one_pos, h0, hlen]
    simp only
    rw [if_neg (by omega), if_pos (by omega)]
  · unfold ipFields
    rw [h0, h4, h6, h8, h24, if_neg (by omega), if_neg (by omega),
      ofNat_field _ (by norm_num), ofNat_field _ (by norm_num), Nat.mod_eq_of_lt h.next_lt,
      Nat.mod_eq_of_lt (by omega)]
    rfl

lemma readExtensions_behind (h : V6) (hlen : h.behind.length < 2 ^ 16) (n : ℕ) (rest : Bytes) :
    readExtensions (h.header n) (h.behind ++ rest) = .done protoTcp h.behind.length := by
  have hchain := le_length_chainBytes h.exts
  unfold behind at hlen ⊢
  rw [List.length_append] at hlen
  have hmax : h.exts.length < maxExtensions := by
    unfold maxExtensions
    omega
  unfold readExtensions header next
  cases h.hopByHop with
  | none =>
      simp only [Option.isSome_none, Bool.false_eq_true, if_false,
        if_neg (firstKind_ne_hopByHop h.exts)]
      exact readChain_bytes h.exts hmax rest
  | some e =>
      refine seq_eq_done.mpr ⟨firstKind h.exts, _, _, ?_, ?_, List.length_append⟩
      · rw [List.append_assoc]
        exact readRawExt_bytes (firstKind_lt h.exts) _ e
      · rw [List.append_assoc, Option.map_some, Option.getD_some, List.drop_left]
        exact readChain_bytes h.exts hmax rest

end V6

structure Tcp where
  sourcePort : BitVec 16
  destinationPort : BitVec 16
  seq : BitVec 32
  ack : BitVec 32
  reserved : Fin 8
  /-- NS, CWR, ECE, URG, ACK, PSH, RST, SYN, FIN, from bit 8 down. -/
  flags : BitVec 9
  window : BitVec 16
  checksum : BitVec 16
  urgent : BitVec 16
  words : Fin 11
  options : Bytes
  length_options : options.length = 4 * words.val

namespace Tcp

def fields (t : Tcp) : Fields :=
  [(2, t.sourcePort.toNat), (2, t.destinationPort.toNat), (4, t.seq.toNat), (4, t.ack.toNat),
    (1, (5 + t.words.val) * 16 + t.reserved.val * 2 + t.flags.toNat / 256),
    (1, t.flags.toNat), (2, t.window.toNat), (2, t.checksum.toNat), (2, t.urgent.toNat)]

def bytes (t : Tcp) : Bytes := write t.fields ++ t.options

def header (t : Tcp) : TcpHeader where
  sourcePort := t.sourcePort
  destinationPort := t.destinationPort
  seq := t.seq
  ack := t.ack
  dataOffset := 5 + t.words.val
  flags := t.flags.setWidth 16
  window := t.window
  options := t.options

lemma length_fields (t : Tcp) : (write t.fields).length = 20 := length_write _

lemma length_bytes (t : Tcp) : t.bytes.length = 4 * (5 + t.words.val) := by
  rw [bytes, List.length_append, t.length_fields, t.length_options]
  omega

lemma readTcp_bytes (t : Tcp) (rest : Bytes) :
    readTcp (t.bytes ++ rest) = .done t.header t.bytes.length := by
  have hlen := t.length_bytes
  have hwords := t.words.isLt
  have hreserved := t.reserved.isLt
  have hflags := t.flags.isLt
  have h0 : bigEndian t.bytes 0 2 = t.sourcePort.toNat % 256 ^ 2 := bigEndian_write (i := 0) rfl _
  have h2 : bigEndian t.bytes 2 2 = t.destinationPort.toNat % 256 ^ 2 :=
    bigEndian_write (i := 1) rfl _
  have h4 : bigEndian t.bytes 4 4 = t.seq.toNat % 256 ^ 4 := bigEndian_write (i := 2) rfl _
  have h8 : bigEndian t.bytes 8 4 = t.ack.toNat % 256 ^ 4 := bigEndian_write (i := 3) rfl _
  have h12 : byteAt t.bytes 12 =
      ((5 + t.words.val) * 16 + t.reserved.val * 2 + t.flags.toNat / 256) % 256 :=
    byteAt_write (i := 4) rfl _
  have h13 : byteAt t.bytes 13 = t.flags.toNat % 256 := byteAt_write (i := 5) rfl _
  have h14 : bigEndian t.bytes 14 2 = t.window.toNat % 256 ^ 2 := bigEndian_write (i := 6) rfl _
  have hoff : byteAt t.bytes 12 / 16 = 5 + t.words.val := by omega
  -- the data offset and the reserved bits stand above the nine flags
  have hbits : bigEndian t.bytes 12 2 % 512 = t.flags.toNat := by
    rw [bigEndian_two (by omega), h12, h13]
    omega
  refine sized_append (by omega) ?_ ?_ rest
  · rw [tcpHeaderLen, byteAt_take (by omega), hoff, if_pos (by omega), hlen]
  · unfold tcpFields header
    rw [h0, h2, h4, h8, h14, hoff, hbits, ofNat_field _ (by norm_num),
      ofNat_field _ (by norm_num), ofNat_field _ (by norm_num), ofNat_field _ (by norm_num),
      ofNat_field _ (by norm_num), BitVec.ofNat_toNat, bytes, ← t.length_fields, List.drop_left]

end Tcp

/-! ### Packets -/

/-- An IP header and what stands between it and the TCP header. -/
inductive Ip
  | v4 (h : V4)
  | v6 (h : V6)

namespace Ip

def fixed : Ip → ℕ
  | v4 h => h.fixed
  | v6 _ => 40

def behind : Ip → Bytes
  | v4 h => h.behind
  | v6 h => h.behind

/-- What the length field counts of the IP header itself. -/
def counted : Ip → ℕ
  | v4 h => h.fixed
  | v6 _ => 0

def bytes (n : ℕ) : Ip → Bytes
  | v4 h => h.bytes n
  | v6 h => h.bytes n

def header (n : ℕ) : Ip → IpHeader
  | v4 h => h.header n
  | v6 h => h.header n

lemma length_bytes (n : ℕ) (ip : Ip) : (ip.bytes n).length = ip.fixed := by
  cases ip with
  | v4 h => exact h.length_bytes n
  | v6 h => exact h.length_bytes n

lemma readIp_bytes {n : ℕ} (hpos : 0 < n) (ip : Ip) (hn : ip.counted + n < 2 ^ 16)
    (rest : Bytes) : readIp (ip.bytes n ++ rest) = .done (ip.header n) ip.fixed := by
  cases ip with
  | v4 h => exact h.readIp_bytes hn rest
  | v6 h => exact h.readIp_bytes hpos (by simpa [counted] using hn) rest

lemma readExtensions_behind (n : ℕ) (ip : Ip) (hlen : ip.behind.length < 2 ^ 16)
    (rest : Bytes) :
    readExtensions (ip.header n) (ip.behind ++ rest) = .done protoTcp ip.behind.length := by
  cases ip with
  | v4 h => exact h.readExtensions_behind n rest
  | v6 h => exact h.readExtensions_behind hlen n rest

/-- The length field counts the bytes behind the header. -/
lemma onwire_header {n : ℕ} (ip : Ip) (hn : ip.counted + n < 2 ^ 16) :
    (ip.header n).onwire = ip.fixed + n := by
  cases ip with
  | v4 h => exact Nat.mod_eq_of_lt hn
  | v6 h => exact congrArg (40 + ·) (Nat.mod_eq_of_lt (by simpa [counted] using hn))

lemma headerLen_header (n : ℕ) (ip : Ip) : (ip.header n).headerLen = ip.fixed := by
  cases ip <;> rfl

end Ip

/-- A TCP segment in a packet of its own. -/
structure Packet where
  ip : Ip
  tcp : Tcp
  payload : Bytes
  fits : ip.counted + (ip.behind.length + tcp.bytes.length + payload.length) < 2 ^ 16

namespace Packet

variable (p : Packet)

/-- The bytes behind the IP header. -/
def size : ℕ := p.ip.behind.length + p.tcp.bytes.length + p.payload.length

/-- The headers, up to the payload. -/
def headers : Bytes := p.ip.bytes p.size ++ (p.ip.behind ++ p.tcp.bytes)

def ipHeader : IpHeader := p.ip.header p.size

/-- The extension headers and the TCP header. -/
def used : ℕ := p.ip.behind.length + p.tcp.bytes.length

lemma length_headers : p.headers.length = p.ip.fixed + p.used := by
  rw [headers, List.length_append, List.length_append, p.ip.length_bytes, used]

lemma size_pos : 0 < p.size := by
  have := p.tcp.length_bytes
  unfold size
  omega

lemma onwire_ipHeader : p.ipHeader.onwire = p.headers.length + p.payload.length := by
  rw [ipHeader, p.ip.onwire_header (n := p.size) p.fits, p.length_headers, used, size]
  omega

lemma readIp_headers (rest : Bytes) :
    readIp (p.headers ++ rest) = .done p.ipHeader p.ip.fixed := by
  rw [headers, List.append_assoc]
  exact p.ip.readIp_bytes p.size_pos p.fits _

/-- **What was written is read**, whatever follows the headers. -/
theorem readTransport_headers (rest : Bytes) :
    readTransport p.ipHeader ((p.headers ++ rest).drop p.ip.fixed) =
      .done p.tcp.header p.used := by
  have hfits := p.fits
  have hlimit : p.used ≤ p.ipHeader.onwire - p.ipHeader.headerLen := by
    rw [p.onwire_ipHeader, p.length_headers, ipHeader, p.ip.headerLen_header]
    omega
  have hsplit : ((p.headers ++ rest).drop p.ip.fixed).take
      (p.ipHeader.onwire - p.ipHeader.headerLen) =
      p.ip.behind ++ (p.tcp.bytes ++ rest.take
        (p.ipHeader.onwire - p.ipHeader.headerLen - p.used)) := by
    have hused : (p.ip.behind ++ p.tcp.bytes).length = p.used := List.length_append
    rw [headers, List.append_assoc, List.drop_left' (p.ip.length_bytes _), List.take_append,
      List.take_of_length_le (hused.le.trans hlimit), hused, List.append_assoc]
  rw [readTransport, limit, hsplit]
  refine seq_eq_done.mpr
    ⟨protoTcp, _, _, p.ip.readExtensions_behind p.size (by omega) _, ?_, rfl⟩
  rw [List.drop_left]
  exact p.tcp.readTcp_bytes _

end Packet

end TcpVisr.Lib.IpTcp

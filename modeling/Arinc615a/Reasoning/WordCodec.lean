import Arinc615a.Reasoning.Decoder
import Mathlib.Data.List.Induction
import Mathlib.Tactic.Ring

/-!
# Fixed-width words in a byte span

A `WordCodec` is an encoder and a decoder that are inverses of each other on a fixed number of
bytes.  Reading a word is unguarded: a span that is too short is overrun.
-/

namespace Reasoning

structure WordCodec (α : Type) (width : Nat) where
  encode : α → Bytes
  decode : Bytes → α
  length_encode : ∀ a, (encode a).length = width
  decode_encode : ∀ a, decode (encode a) = a
  encode_decode : ∀ bs, bs.length = width → encode (decode bs) = bs

/-- Takes `size` bytes off the span, unguarded as well. -/
def Reader.take {χ : Type} (size : Nat) : Reader χ Bytes := fun bs =>
  if bs.length < size then .error .overrun else .ok (bs.take size, bs.drop size)

theorem Reader.take_of_le {χ : Type} {size : Nat} {bs : Bytes} (h : size ≤ bs.length) :
    (Reader.take size bs : Except (Failure χ) _) = .ok (bs.take size, bs.drop size) := by
  unfold Reader.take
  rw [if_neg (Nat.not_lt.mpr h)]

namespace WordCodec

variable {χ α β : Type} {width : Nat}

attribute [simp] length_encode decode_encode

def read (codec : WordCodec α width) : Reader χ α := fun bs =>
  if bs.length < width then .error .overrun
  else .ok (codec.decode (bs.take width), bs.drop width)

@[simp] theorem read_encode (codec : WordCodec α width) (a : α) (rest : Bytes) :
    (codec.read (codec.encode a ++ rest) : Except (Failure χ) _) = .ok (a, rest) := by
  unfold read
  have hlen := codec.length_encode a
  rw [if_neg (by simp), List.take_left' hlen, List.drop_left' hlen, codec.decode_encode]

theorem read_of_le (codec : WordCodec α width) {bs : Bytes} (h : width ≤ bs.length) :
    (codec.read bs : Except (Failure χ) _) =
      .ok (codec.decode (bs.take width), bs.drop width) := by
  unfold read
  rw [if_neg (Nat.not_lt.mpr h)]

theorem read_of_lt (codec : WordCodec α width) {bs : Bytes} (h : bs.length < width) :
    (codec.read bs : Except (Failure χ) _) = .error .overrun := by
  unfold read
  rw [if_pos h]

/-- Words of one type carried over to another type of the same size. -/
def map (codec : WordCodec α width) (f : α → β) (g : β → α) (hfg : ∀ b, f (g b) = b)
    (hgf : ∀ a, g (f a) = a) : WordCodec β width where
  encode b := codec.encode (g b)
  decode bs := f (codec.decode bs)
  length_encode b := codec.length_encode (g b)
  decode_encode b := by rw [codec.decode_encode, hfg]
  encode_decode bs h := by rw [hgf, codec.encode_decode bs h]

end WordCodec

/-! ## Big-endian words -/

/-- The low `width` bytes of a number, most significant first. -/
def toBigEndian : Nat → Nat → Bytes
  | 0, _ => []
  | width + 1, n => toBigEndian width (n / 256) ++ [n.toUInt8]

def ofBigEndian (bs : Bytes) : Nat := bs.foldl (fun n b => n * 256 + b.toNat) 0

@[simp] theorem length_toBigEndian (width n : Nat) : (toBigEndian width n).length = width := by
  induction width generalizing n with
  | zero => rfl
  | succ width ih => rw [toBigEndian, List.length_append, ih, List.length_singleton]

theorem ofBigEndian_append_singleton (bs : Bytes) (b : UInt8) :
    ofBigEndian (bs ++ [b]) = ofBigEndian bs * 256 + b.toNat := by
  unfold ofBigEndian
  rw [List.foldl_append, List.foldl_cons, List.foldl_nil]

theorem ofBigEndian_toBigEndian (width n : Nat) :
    ofBigEndian (toBigEndian width n) = n % 256 ^ width := by
  induction width generalizing n with
  | zero => rw [pow_zero, Nat.mod_one]; rfl
  | succ width ih =>
    have hb : n.toUInt8.toNat = n % 256 := UInt8.toNat_ofNat' ..
    -- the last byte is the remainder, and the bytes before it hold the quotient
    rw [toBigEndian, ofBigEndian_append_singleton, ih, hb, pow_succ', Nat.mod_mul]
    ring

theorem ofBigEndian_lt (bs : Bytes) : ofBigEndian bs < 256 ^ bs.length := by
  induction bs using List.reverseRecOn with
  | nil => decide
  | append_singleton bs b ih =>
    have hb : b.toNat < 256 := b.toNat_lt
    rw [ofBigEndian_append_singleton, List.length_append, List.length_singleton, pow_succ]
    omega

theorem toBigEndian_ofBigEndian (bs : Bytes) : toBigEndian bs.length (ofBigEndian bs) = bs := by
  induction bs using List.reverseRecOn with
  | nil => rfl
  | append_singleton bs b ih =>
    have hb : b.toNat < 256 := b.toNat_lt
    -- from the last byte back: division and remainder take the number apart again
    have hdiv : (ofBigEndian bs * 256 + b.toNat) / 256 = ofBigEndian bs := by omega
    have hbyte : (ofBigEndian bs * 256 + b.toNat).toUInt8 = b := by
      apply UInt8.toNat_inj.mp
      change (UInt8.ofNat _).toNat = _
      rw [UInt8.toNat_ofNat']
      omega
    rw [ofBigEndian_append_singleton, List.length_append, List.length_singleton, toBigEndian,
      hdiv, ih, hbyte]

namespace WordCodec

/-- Big-endian words of a type that is in bijection with the numbers below `256 ^ width`. -/
def bigEndian {α : Type} (width : Nat) (toNat : α → Nat) (ofNat : Nat → α)
    (toNat_lt : ∀ a, toNat a < 256 ^ width) (ofNat_toNat : ∀ a, ofNat (toNat a) = a)
    (toNat_ofNat : ∀ n, n < 256 ^ width → toNat (ofNat n) = n) : WordCodec α width where
  encode a := toBigEndian width (toNat a)
  decode bs := ofNat (ofBigEndian bs)
  length_encode a := length_toBigEndian ..
  decode_encode a := by
    rw [ofBigEndian_toBigEndian, Nat.mod_eq_of_lt (toNat_lt a), ofNat_toNat]
  encode_decode bs h := by
    have hlt := ofBigEndian_lt bs
    rw [h] at hlt
    have hback := toBigEndian_ofBigEndian bs
    rw [h] at hback
    rw [toNat_ofNat _ hlt, hback]

def bigEndianUInt8 : WordCodec UInt8 1 :=
  bigEndian 1 UInt8.toNat UInt8.ofNat UInt8.toNat_lt (fun _ => UInt8.ofNat_toNat)
    (fun _ h => UInt8.toNat_ofNat_of_lt' h)

def bigEndianUInt16 : WordCodec UInt16 2 :=
  bigEndian 2 UInt16.toNat UInt16.ofNat UInt16.toNat_lt (fun _ => UInt16.ofNat_toNat)
    (fun _ h => UInt16.toNat_ofNat_of_lt' h)

def bigEndianUInt32 : WordCodec UInt32 4 :=
  bigEndian 4 UInt32.toNat UInt32.ofNat UInt32.toNat_lt (fun _ => UInt32.ofNat_toNat)
    (fun _ h => UInt32.toNat_ofNat_of_lt' h)

/-- Signed words in two's complement. -/
def bigEndianInt16 : WordCodec Int16 2 :=
  bigEndianUInt16.map UInt16.toInt16 Int16.toUInt16 (fun b => by simp) (fun a => by simp)

end WordCodec

end Reasoning

import Mathlib.Data.List.Forall2
import Mathlib.Tactic.Positivity
import Mathlib.Tactic.Zify

/-! Readers that take a value from the front of a sequence of tokens, and integers as bytes,
the highest first. -/
namespace DatafusionPostgres.Library

/-- A reader returns a value and the tokens after it, or fails. -/
abbrev Reader (τ α : Type) := StateT (List τ) Option α

namespace Reader
variable {τ α β : Type}

/-- The tokens are read as the value, and what follows them is left over. -/
def Reads (reader : Reader τ α) (tokens : List τ) (a : α) : Prop :=
  ∀ rest, reader (tokens ++ rest) = some (a, rest)

/-- The value of a sequence that is read to its end. -/
def whole (reader : Reader τ α) (tokens : List τ) : Option α :=
  match reader tokens with
  | some (a, []) => some a
  | _ => none

/-- The next `n` tokens. -/
def take (n : Nat) : Reader τ (List τ) := fun tokens =>
  if n ≤ tokens.length then some (tokens.take n, tokens.drop n) else none

/-- `n` values one after the other. -/
def times (reader : Reader τ α) : Nat → Reader τ (List α)
  | 0 => return []
  | n + 1 => do
    let a ← reader
    List.cons a <$> times reader n

theorem reads_pure (a : α) : Reads (pure a : Reader τ α) [] a := fun _ => rfl

theorem Reads.bind {reader : Reader τ α} {next : α → Reader τ β} {tokens tokens' : List τ}
    {a : α} {b : β} (h : Reads reader tokens a) (hnext : Reads (next a) tokens' b) :
    Reads (reader >>= next) (tokens ++ tokens') b := by
  intro rest
  rw [List.append_assoc]
  change (reader (tokens ++ (tokens' ++ rest)) >>= fun read => next read.1 read.2) = _
  rw [h]
  exact hnext rest

theorem Reads.map {reader : Reader τ α} {tokens : List τ} {a : α} (h : Reads reader tokens a)
    (f : α → β) : Reads (f <$> reader) tokens (f a) := by
  have hbind : Reads (reader >>= fun a => pure (f a)) (tokens ++ []) (f a) :=
    h.bind (reads_pure (f a))
  rw [List.append_nil] at hbind
  exact hbind

theorem whole_of_run {reader : Reader τ α} {tokens : List τ} {a : α}
    (h : reader tokens = some (a, [])) : reader.whole tokens = some a := by
  unfold Reader.whole
  rw [h]

theorem Reads.whole {reader : Reader τ α} {tokens : List τ} {a : α} (h : Reads reader tokens a) :
    reader.whole tokens = some a := by
  have hread := h []
  rw [List.append_nil] at hread
  exact whole_of_run hread

theorem bind_eq_some {reader : Reader τ α} {next : α → Reader τ β} {tokens rest : List τ} {b : β}
    (h : (reader >>= next) tokens = some (b, rest)) :
    ∃ a mid, reader tokens = some (a, mid) ∧ next a mid = some (b, rest) := by
  obtain ⟨⟨a, mid⟩, hread, hnext⟩ := Option.bind_eq_some_iff.mp h
  exact ⟨a, mid, hread, hnext⟩

theorem map_eq_some {reader : Reader τ α} {f : α → β} {tokens rest : List τ} {b : β}
    (h : (f <$> reader) tokens = some (b, rest)) : ∃ a, reader tokens = some (a, rest) ∧ f a = b := by
  obtain ⟨⟨a, mid⟩, hread, hmap⟩ := Option.bind_eq_some_iff.mp h
  cases hmap
  exact ⟨a, hread, rfl⟩

/-- A first reader whose run is known. -/
theorem bind_run {reader : Reader τ α} {tokens mid : List τ} {a : α}
    (h : reader tokens = some (a, mid)) (next : α → Reader τ β) :
    (reader >>= next) tokens = next a mid := by
  change (reader tokens >>= fun read => next read.1 read.2) = _
  rw [h]
  rfl

theorem whole_eq_some {reader : Reader τ α} {tokens : List τ} {a : α}
    (h : reader.whole tokens = some a) : reader tokens = some (a, []) := by
  unfold Reader.whole at h
  split at h
  · cases h
    assumption
  · cases h

theorem reads_take (tokens : List τ) : Reads (take tokens.length) tokens tokens := by
  intro rest
  have hle : tokens.length ≤ (tokens ++ rest).length := by
    rw [List.length_append]
    omega
  unfold take
  rw [if_pos hle, List.take_left, List.drop_left]

theorem reads_times {reader : Reader τ α} {chunks : List (List τ)} {values : List α}
    (h : List.Forall₂ (Reads reader) chunks values) :
    Reads (reader.times values.length) chunks.flatten values := by
  induction h with
  | nil => exact reads_pure []
  | @cons chunk value chunks values hread _ ih =>
    have hrest : Reads (List.cons value <$> reader.times values.length) chunks.flatten
        (value :: values) := ih.map _
    exact hread.bind hrest

end Reader

/-- The last `width` bytes of a number, the highest first. -/
def bigEndian : Nat → Nat → List UInt8
  | 0, _ => []
  | width + 1, n => bigEndian width (n / 256) ++ [.ofNat n]

def bigEndianValue (bytes : List UInt8) : Nat := bytes.foldl (fun n byte => 256 * n + byte.toNat) 0

theorem bigEndian_length (width n : Nat) : (bigEndian width n).length = width := by
  induction width generalizing n with
  | zero => rfl
  | succ width ih => rw [bigEndian, List.length_append, ih, List.length_singleton]

/-- A number that fits is found again. -/
theorem bigEndianValue_bigEndian {width n : Nat} (h : n < 256 ^ width) :
    bigEndianValue (bigEndian width n) = n := by
  induction width generalizing n with
  | zero =>
    have hzero : n = 0 := by
      rw [Nat.pow_zero] at h
      omega
    rw [hzero]
    rfl
  | succ width ih =>
    have hhigh : bigEndianValue (bigEndian width (n / 256)) = n / 256 := by
      apply ih
      rw [Nat.pow_succ] at h
      exact Nat.div_lt_of_lt_mul (by omega)
    have hlow : (UInt8.ofNat n).toNat = n % 256 := UInt8.toNat_ofNat'
    unfold bigEndianValue at hhigh ⊢
    rw [bigEndian, List.foldl_append, hhigh, List.foldl_cons, List.foldl_nil, hlow]
    exact Nat.div_add_mod n 256

/-- A signed number in `width` bytes, negative ones from the upper half down. -/
def twosComplement (width : Nat) (n : Int) : List UInt8 := bigEndian width (n % 256 ^ width).toNat

def twosComplementValue (bytes : List UInt8) : Int :=
  let n := bigEndianValue bytes
  if 2 * n < 256 ^ bytes.length then n else n - 256 ^ bytes.length

theorem twosComplement_length (width : Nat) (n : Int) : (twosComplement width n).length = width :=
  bigEndian_length width _

theorem twosComplementValue_twosComplement {width : Nat} {n : Int} (hlow : -256 ^ width ≤ 2 * n)
    (hhigh : 2 * n < 256 ^ width) : twosComplementValue (twosComplement width n) = n := by
  have hmod : 0 ≤ n % 256 ^ width ∧ n % 256 ^ width < 256 ^ width :=
    ⟨Int.emod_nonneg n (by positivity), Int.emod_lt_of_pos n (by positivity)⟩
  have hvalue : bigEndianValue (twosComplement width n) = (n % 256 ^ width).toNat := by
    apply bigEndianValue_bigEndian
    zify
    rw [Int.toNat_of_nonneg hmod.1]
    exact hmod.2
  unfold twosComplementValue
  rw [hvalue, twosComplement_length]
  dsimp only
  rw [Int.toNat_of_nonneg hmod.1]
  by_cases hn : 0 ≤ n
  · rw [Int.emod_eq_of_lt hn (by omega), if_pos]
    zify
    rw [Int.toNat_of_nonneg hn]
    exact hhigh
  · have hrest : n % 256 ^ width = n + 256 ^ width := by
      rw [← Int.add_emod_right, Int.emod_eq_of_lt (by omega) (by omega)]
    rw [hrest, if_neg]
    · omega
    · zify
      rw [Int.toNat_of_nonneg (by omega)]
      omega

/-- A number of `width` bytes. -/
def Reader.bigEndian (width : Nat) : Reader UInt8 Nat := bigEndianValue <$> take width

theorem Reader.reads_bigEndian {width n : Nat} (h : n < 256 ^ width) :
    Reads (Reader.bigEndian width) (Library.bigEndian width n) n := by
  have hmap := (reads_take (Library.bigEndian width n)).map bigEndianValue
  rw [bigEndian_length, bigEndianValue_bigEndian h] at hmap
  exact hmap

namespace Reader

def u32 : Reader UInt8 UInt32 := UInt32.ofNat <$> Reader.bigEndian 4

def i32 : Reader UInt8 Int32 := UInt32.toInt32 <$> u32

def i64 : Reader UInt8 Int64 := (fun n => (UInt64.ofNat n).toInt64) <$> Reader.bigEndian 8

theorem reads_u32 (n : UInt32) : Reads u32 (Library.bigEndian 4 n.toNat) n := by
  have hread : Reads u32 _ (UInt32.ofNat n.toNat) := (reads_bigEndian n.toNat_lt).map _
  rwa [UInt32.ofNat_toNat] at hread

theorem reads_i32 (n : Int32) : Reads i32 (Library.bigEndian 4 n.toUInt32.toNat) n :=
  (reads_u32 n.toUInt32).map _

theorem reads_i64 (n : Int64) : Reads i64 (Library.bigEndian 8 n.toUInt64.toNat) n := by
  have hread : Reads i64 _ (UInt64.ofNat n.toUInt64.toNat).toInt64 :=
    (reads_bigEndian n.toUInt64.toNat_lt).map _
  rwa [UInt64.ofNat_toNat] at hread

end Reader
end DatafusionPostgres.Library

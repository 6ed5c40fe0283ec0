import Mathlib.Data.List.Basic
import Mathlib.Data.Nat.Digits.Defs
import Mathlib.Tactic.Common

/-! Byte buffers as lists: little-endian words, windows and in-place overwriting. -/
namespace SolanaArbBot.Lib

/-- Why the process aborts: an index out of range, or an expectation that failed. -/
inductive Panic where
  | sliceIndex
  | expect (message : String)
  deriving DecidableEq

/-- The eight bytes of a word, least significant first. -/
def leBytes (x : UInt64) : List UInt8 :=
  [x.toUInt8, (x >>> 8).toUInt8, (x >>> 16).toUInt8, (x >>> 24).toUInt8,
    (x >>> 32).toUInt8, (x >>> 40).toUInt8, (x >>> 48).toUInt8, (x >>> 56).toUInt8]

@[simp] theorem leBytes_length (x : UInt64) : (leBytes x).length = 8 := rfl

/-- A word is determined by its bytes. -/
theorem leBytes_injective {x y : UInt64} (h : leBytes x = leBytes y) : x = y := by
  have hx := x.toNat_lt
  have hy := y.toNat_lt
  simp only [leBytes, List.cons.injEq, and_true, ← UInt8.toNat_inj, UInt64.toNat_toUInt8,
    UInt64.toNat_shiftRight, Nat.shiftRight_eq_div_pow] at h
  apply UInt64.toNat_inj.mp
  simp only [Nat.reducePow, UInt64.reduceToNat, Nat.reduceMod] at h
  omega

def ofLeBytes (bytes : List UInt8) : UInt64 :=
  UInt64.ofNat (Nat.ofDigits 256 (bytes.map UInt8.toNat))

@[simp] theorem ofLeBytes_leBytes (x : UInt64) : ofLeBytes (leBytes x) = x := by
  have hx := x.toNat_lt
  have hdigits : Nat.ofDigits 256 ((leBytes x).map UInt8.toNat) = x.toNat := by
    simp only [leBytes, List.map_cons, List.map_nil, Nat.ofDigits_cons, Nat.ofDigits_nil,
      UInt64.toNat_toUInt8, UInt64.toNat_shiftRight, Nat.shiftRight_eq_div_pow]
    simp only [Nat.reducePow, UInt64.reduceToNat, Nat.reduceMod]
    omega
  rw [ofLeBytes, hdigits, UInt64.ofNat_toNat]

def leBytes32 (x : UInt32) : List UInt8 :=
  [x.toUInt8, (x >>> 8).toUInt8, (x >>> 16).toUInt8, (x >>> 24).toUInt8]

def asBytes (s : String) : List UInt8 := s.toList.flatMap String.utf8EncodeChar

variable {α : Type}

/-- The bytes of the half-open range from p to p + n, cut off at the end of the buffer. -/
def window (data : List α) (p n : Nat) : List α := (data.drop p).take n

theorem window_append (pre w post : List α) : window (pre ++ w ++ post) pre.length w.length = w := by
  simp [window, List.append_assoc]

theorem window_append_right (pre w post : List α) (n : Nat) :
    window (pre ++ (w ++ post)) (pre.length + w.length) n = post.take n := by
  rw [window, ← List.append_assoc, ← List.length_append, List.drop_left]

def OccursAt (pat data : List α) (p : Nat) : Prop :=
  p + pat.length ≤ data.length ∧ window data p pat.length = pat

instance [DecidableEq α] (pat data : List α) (p : Nat) : Decidable (OccursAt pat data p) :=
  inferInstanceAs (Decidable (_ ∧ _))

/-- A pattern in two parts stands where its parts stand next to each other. -/
theorem occursAt_append {w w' data : List α} {p : Nat} :
    OccursAt (w ++ w') data p ↔ OccursAt w data p ∧ OccursAt w' data (p + w.length) := by
  have hsplit : window data p (w ++ w').length =
      window data p w.length ++ window data (p + w.length) w'.length := by
    rw [window, List.length_append, List.take_add, List.drop_drop]
    rfl
  rw [OccursAt, hsplit, List.length_append]
  constructor
  · rintro ⟨hlen, he⟩
    obtain ⟨h1, h2⟩ := List.append_inj he (by simp only [window, List.length_take, List.length_drop]; omega)
    exact ⟨⟨by omega, h1⟩, by omega, h2⟩
  · rintro ⟨⟨_, h1⟩, hlen, h2⟩
    exact ⟨by omega, by rw [h1, h2]⟩

/-- Overwrite the buffer from p on, keeping every other byte. -/
def splice (data : List α) (p : Nat) (w : List α) : List α :=
  data.take p ++ w ++ data.drop (p + w.length)

theorem splice_length (data : List α) (p : Nat) (w : List α) (h : p + w.length ≤ data.length) :
    (splice data p w).length = data.length := by
  simp only [splice, List.length_append, List.length_take, List.length_drop]
  omega

/-- Overwriting a window of the same width replaces exactly that window. -/
theorem splice_append (pre old w post : List α) (h : w.length = old.length) :
    splice (pre ++ (old ++ post)) pre.length w = pre ++ (w ++ post) := by
  have hd : (pre ++ (old ++ post)).drop (pre.length + w.length) = post := by
    rw [h, ← List.append_assoc, ← List.length_append, List.drop_left]
  rw [splice, List.take_left, hd, List.append_assoc]

theorem getElem?_splice {data w : List α} {p : Nat} (h : p + w.length ≤ data.length) (k : Nat) :
    (splice data p w)[k]? = if p ≤ k ∧ k < p + w.length then w[k - p]? else data[k]? := by
  have hp : (data.take p).length = p := by rw [List.length_take]; omega
  rw [splice, List.append_assoc, List.getElem?_append, hp]
  by_cases hk : k < p
  · rw [if_pos hk, if_neg (by omega), List.getElem?_take_of_lt hk]
  · rw [if_neg hk, List.getElem?_append]
    by_cases hk' : k < p + w.length
    · rw [if_pos (by omega), if_pos ⟨by omega, hk'⟩]
    · rw [if_neg (by omega), if_neg (by omega), List.getElem?_drop]
      congr 1
      omega

/-- A pattern stands at p when the bytes from p on are its bytes. -/
theorem occursAt_iff_getElem? {pat data : List α} {p : Nat} (h : p + pat.length ≤ data.length) :
    OccursAt pat data p ↔ ∀ k < pat.length, data[p + k]? = pat[k]? := by
  have hget (k : Nat) (hk : k < pat.length) : (window data p pat.length)[k]? = data[p + k]? := by
    rw [window, List.getElem?_take_of_lt hk, List.getElem?_drop]
  refine (and_iff_right h).trans ?_
  constructor
  · intro he k hk
    rw [← hget k hk, he]
  · intro hk
    apply List.ext_getElem?
    intro k
    by_cases hlt : k < pat.length
    · rw [hget k hlt, hk k hlt]
    · have hlen : (window data p pat.length).length = pat.length := by
        rw [window, List.length_take, List.length_drop]
        omega
      rw [List.getElem?_eq_none (by omega), List.getElem?_eq_none (by omega)]

/-- What is written at p stands there. -/
theorem occursAt_splice {data w : List α} {p : Nat} (h : p + w.length ≤ data.length) :
    OccursAt w (splice data p w) p := by
  rw [occursAt_iff_getElem? (by rw [splice_length _ _ _ h]; exact h)]
  intro k hk
  rw [getElem?_splice h, if_pos ⟨by omega, by omega⟩]
  congr 1
  omega

/-- Two words at p and q name the same bytes where they overlap. -/
def Agree (w w' : List α) (p q : Nat) : Prop :=
  ∀ j < w.length, ∀ k < w'.length, p + j = q + k → w[j]? = w'[k]?

instance [DecidableEq α] (w w' : List α) (p q : Nat) : Decidable (Agree w w' p q) :=
  inferInstanceAs (Decidable (∀ j < w.length, ∀ k < w'.length, p + j = q + k → w[j]? = w'[k]?))

/-- A second write leaves the first one standing when they agree. -/
theorem occursAt_splice_splice {data w w' : List α} {p q : Nat} (hp : p + w.length ≤ data.length)
    (hq : q + w'.length ≤ data.length) :
    OccursAt w (splice (splice data p w) q w') p ↔ Agree w w' p q := by
  have hl := splice_length data p w hp
  have hq' : q + w'.length ≤ (splice data p w).length := hl ▸ hq
  have hfirst := (occursAt_iff_getElem? (hl ▸ hp)).mp (occursAt_splice hp)
  rw [occursAt_iff_getElem? (by rw [splice_length _ _ _ hq', hl]; exact hp)]
  constructor
  · intro h j hj k hk hjk
    have hj' := h j hj
    rw [getElem?_splice hq', if_pos ⟨by omega, by omega⟩] at hj'
    rw [← hj', show p + j - q = k by omega]
  · intro h j hj
    rw [getElem?_splice hq']
    split
    · next hin => exact (h j hj (p + j - q) (by omega) (by omega)).symm
    · exact hfirst j hj

end SolanaArbBot.Lib

import Mathlib.Data.List.Sort
import SolanaArbBot.Lib.Bytes

/-! Reading back what was written with separators. A word ends at the first
separator, and sorted groups written one after another end where the order drops. -/
namespace SolanaArbBot.Lib

section Words
variable {α : Type} {sep fin : α}

/-- Words without the separator are told apart by it. -/
theorem append_sep_inj {a a' b b' : List α} (ha : sep ∉ a) (ha' : sep ∉ a')
    (h : a ++ sep :: b = a' ++ sep :: b') : a = a' ∧ b = b' := by
  induction a generalizing a' with
  | nil =>
    cases a' with
    | nil => exact ⟨rfl, (List.cons.inj h).2⟩
    | cons x a' =>
      have hx := (List.cons.inj h).1
      exact absurd (hx ▸ List.mem_cons_self) ha'
  | cons x a ih =>
    cases a' with
    | nil =>
      have hx := (List.cons.inj h).1
      exact absurd (hx ▸ List.mem_cons_self) ha
    | cons x' a' =>
      obtain ⟨rfl, ht⟩ := List.cons.inj h
      obtain ⟨rfl, hb⟩ := ih (fun hm => ha (List.mem_cons_of_mem _ hm))
        (fun hm => ha' (List.mem_cons_of_mem _ hm)) ht
      exact ⟨rfl, hb⟩

/-- A field written as its key, a separator, its value and an end mark. -/
def delimited (sep fin : α) (f : List α × List α) : List α := f.1 ++ sep :: (f.2 ++ [fin])

/-- Fields whose keys avoid the separator and whose values avoid the end mark are
read back from what is written. -/
theorem flatMap_delimited_inj {fs gs : List (List α × List α)}
    (hf : ∀ f ∈ fs, sep ∉ f.1 ∧ fin ∉ f.2) (hg : ∀ g ∈ gs, sep ∉ g.1 ∧ fin ∉ g.2)
    (h : fs.flatMap (delimited sep fin) = gs.flatMap (delimited sep fin)) : fs = gs := by
  induction fs generalizing gs with
  | nil =>
    cases gs with
    | nil => rfl
    | cons g gs => simp [delimited] at h
  | cons f fs ih =>
    cases gs with
    | nil => simp [delimited] at h
    | cons g gs =>
      obtain ⟨⟨hf1, hf2⟩, hfs⟩ := List.forall_mem_cons.mp hf
      obtain ⟨⟨hg1, hg2⟩, hgs⟩ := List.forall_mem_cons.mp hg
      simp only [List.flatMap_cons, delimited, List.append_assoc, List.cons_append,
        List.nil_append] at h
      obtain ⟨h1, hrest⟩ := append_sep_inj hf1 hg1 h
      obtain ⟨h2, htail⟩ := append_sep_inj hf2 hg2 hrest
      rw [Prod.ext h1 h2, ih hfs hgs htail]

end Words

section Groups
variable {α κ : Type} [Preorder κ] {key : α → κ} {lo hi : κ}

/-- A group is listed in increasing order of keys and has the two given keys. -/
structure Group (key : α → κ) (lo hi : κ) (l : List α) : Prop where
  sorted : (l.map key).Pairwise (· < ·)
  low : lo ∈ l.map key
  high : hi ∈ l.map key

theorem Group.ne_nil {l : List α} (h : Group key lo hi l) : l ≠ [] := by
  intro hnil
  have hlow := h.low
  rw [hnil] at hlow
  cases hlow

theorem Group.head_le {x : α} {l : List α} (h : Group key lo hi (x :: l)) : key x ≤ lo := by
  have hsorted := h.sorted
  have hlow := h.low
  rw [List.map_cons] at hsorted hlow
  rcases List.mem_cons.mp hlow with he | hm
  · exact he.ge
  · exact (List.rel_of_pairwise_cons hsorted hm).le

private theorem Group.ends {l c rest : List α} {L : List (List α)} (hlt : lo < hi)
    (hl : Group key lo hi l) (hlc : Group key lo hi (l ++ c)) (hL : ∀ m ∈ L, Group key lo hi m)
    (h : L.flatten = c ++ rest) : c = [] := by
  cases c with
  | nil => rfl
  | cons x c =>
    cases L with
    | nil => cases h
    | cons m L =>
      have hm := hL m List.mem_cons_self
      cases m with
      | nil => exact absurd rfl hm.ne_nil
      | cons y m =>
        obtain ⟨rfl, _⟩ := List.cons.inj h
        have hsorted := hlc.sorted
        rw [List.map_append] at hsorted
        have hcross := (List.pairwise_append.mp hsorted).2.2 hi hl.high (key y) List.mem_cons_self
        exact absurd hm.head_le (hlt.trans hcross).not_ge

/-- Groups are read back from their concatenation. -/
theorem flatten_groups_inj {L L' : List (List α)} (hlt : lo < hi) (hL : ∀ l ∈ L, Group key lo hi l)
    (hL' : ∀ l ∈ L', Group key lo hi l) (h : L.flatten = L'.flatten) : L = L' := by
  induction L generalizing L' with
  | nil =>
    cases L' with
    | nil => rfl
    | cons l' L' =>
      exact absurd (List.append_eq_nil_iff.mp h.symm).1 (hL' l' List.mem_cons_self).ne_nil
  | cons l L ih =>
    cases L' with
    | nil => exact absurd (List.append_eq_nil_iff.mp h).1 (hL l List.mem_cons_self).ne_nil
    | cons l' L' =>
      obtain ⟨hl, hLs⟩ := List.forall_mem_cons.mp hL
      obtain ⟨hl', hLs'⟩ := List.forall_mem_cons.mp hL'
      have heq : l = l' := by
        rcases List.append_eq_append_iff.mp h with ⟨c, rfl, hc⟩ | ⟨c, rfl, hc⟩
        · rw [hl.ends hlt hl' hLs hc, List.append_nil]
        · rw [hl'.ends hlt hl hLs' hc, List.append_nil]
      subst heq
      rw [ih hLs hLs' (List.append_cancel_left h)]

end Groups

/-- Two functions that distinguish the same pairs of elements distinguish the same lists. -/
theorem map_eq_map_iff_of {α β γ : Type} {f : α → β} {g : α → γ} {l l' : List α}
    (h : ∀ x ∈ l, ∀ y ∈ l', f x = f y ↔ g x = g y) : l.map f = l'.map f ↔ l.map g = l'.map g := by
  induction l generalizing l' with
  | nil => cases l' <;> simp
  | cons x l ih =>
    cases l' with
    | nil => simp
    | cons y l' =>
      have hhead := h x List.mem_cons_self y List.mem_cons_self
      have htail := ih fun a ha b hb => h a (List.mem_cons_of_mem _ ha) b (List.mem_cons_of_mem _ hb)
      rw [List.map_cons, List.map_cons, List.map_cons, List.map_cons, List.cons.injEq,
        List.cons.injEq, hhead, htail]

section Bytes

private theorem high_or {x y : UInt8} (hy : 0x80 ≤ y) : 0x80 ≤ x ||| y := by
  apply UInt8.le_trans hy
  rw [UInt8.le_iff_toNat_le, UInt8.toNat_or]
  exact Nat.right_le_or

private theorem not_mem_of_high {b : UInt8} (hb : b < 0x80) {bytes : List UInt8}
    (h : ∀ x ∈ bytes, 0x80 ≤ x) : b ∉ bytes :=
  fun hm => absurd (h b hm) (UInt8.not_le.mpr hb)

/-- An ASCII byte occurs in the encoding of its own character only. -/
theorem mem_utf8EncodeChar {c : Char} {b : UInt8} (hb : b < 0x80) (h : b ∈ String.utf8EncodeChar c) :
    c.toNat = b.toNat := by
  rcases c.utf8Size_eq with hs | hs | hs | hs
  · have hc : c.toNat ≤ 127 := UInt32.le_iff_toNat_le.mp (Char.utf8Size_eq_one_iff.mp hs)
    rw [String.utf8EncodeChar_eq_singleton hs, List.mem_singleton] at h
    rw [h, UInt32.toNat_toUInt8]
    exact (Nat.mod_eq_of_lt (by omega)).symm
  · rw [String.utf8EncodeChar_eq_cons_cons hs] at h
    exact absurd h (not_mem_of_high hb (by simp [high_or]))
  · rw [String.utf8EncodeChar_eq_cons_cons_cons hs] at h
    exact absurd h (not_mem_of_high hb (by simp [high_or]))
  · rw [String.utf8EncodeChar_eq_cons_cons_cons_cons hs] at h
    exact absurd h (not_mem_of_high hb (by simp [high_or]))

/-- Text without an ASCII character has no byte of it. -/
theorem not_mem_asBytes {s : String} {c : Char} {b : UInt8} (hb : b < 0x80) (hc : c.toNat = b.toNat)
    (h : c ∉ s.toList) : b ∉ asBytes s := by
  intro hm
  obtain ⟨d, hd, hbd⟩ := List.mem_flatMap.mp hm
  have he : d = c := Char.toNat_inj.mp ((mem_utf8EncodeChar hb hbd).trans hc.symm)
  exact h (he ▸ hd)

theorem asBytes_injective : Function.Injective asBytes := by
  intro s t h
  apply String.toByteArray_inj.mp
  rw [← String.utf8Encode_toList, ← String.utf8Encode_toList, List.utf8Encode, List.utf8Encode]
  exact congrArg _ h

end Bytes

end SolanaArbBot.Lib

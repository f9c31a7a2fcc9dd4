import ConfigSnapshot.Text.Bytes

/-!
# Bytes and the texts they are taken for

The UTF-8 form of a text is taken for that text. Other bytes are taken for a text that says so by
U+FFFD: a text without it has one form only, so what is taken for it is its form.
-/

namespace ConfigSnapshot
namespace Bytes

@[simp] theorem ofText_nil : ofText [] = [] :=
  rfl

theorem ofText_cons (c : Char) (t : Text) :
    ofText (c :: t) = String.utf8EncodeChar c ++ ofText t :=
  rfl

theorem firstChar?_encode_append (c : Char) (b : Bytes) :
    firstChar? (String.utf8EncodeChar c ++ b) = some c := by
  rw [firstChar?, List.toByteArray_append]
  exact ByteArray.utf8DecodeChar?_utf8EncodeChar_append

/-- Bytes start with a character if they start with its form. -/
theorem exists_eq_append_of_firstChar? {b : Bytes} {c : Char} (h : firstChar? b = some c) :
    ∃ rest, b = String.utf8EncodeChar c ++ rest := by
  obtain ⟨rest, hrest⟩ := ByteArray.exists_of_utf8DecodeChar?_eq_some h
  refine ⟨rest.data.toList, List.toByteArray_inj.mp ?_⟩
  rw [hrest, List.toByteArray_append]
  congr 1
  exact ByteArray.ext (by simp)

theorem decodeAfter_eq (skipped : Nat) (b : Bytes) :
    decodeAfter skipped b = toText (b.drop skipped) := by
  induction skipped generalizing b with
  | zero => rfl
  | succ skipped ih =>
      cases b with
      | nil => rfl
      | cons first rest => exact ih rest

@[simp] theorem toText_nil : toText [] = [] :=
  rfl

theorem toText_cons (first : UInt8) (rest : Bytes) :
    toText (first :: rest) =
      match firstChar? (first :: rest) with
      | some c => c :: toText (rest.drop (c.utf8Size - 1))
      | none => replacement :: toText (rest.drop (brokenLength (first :: rest) - 1)) := by
  rw [toText, decodeAfter]
  cases firstChar? (first :: rest) with
  | some c => exact congrArg (c :: ·) (decodeAfter_eq (c.utf8Size - 1) rest)
  | none =>
      exact congrArg (replacement :: ·) (decodeAfter_eq (brokenLength (first :: rest) - 1) rest)

theorem toText_of_broken {first : UInt8} {rest : Bytes} (h : firstChar? (first :: rest) = none) :
    toText (first :: rest) =
      replacement :: toText (rest.drop (brokenLength (first :: rest) - 1)) := by
  rw [toText_cons, h]

theorem toText_encode_append (c : Char) (b : Bytes) :
    toText (String.utf8EncodeChar c ++ b) = c :: toText b := by
  have hlength := String.length_utf8EncodeChar c
  have hfirst := firstChar?_encode_append c b
  cases hform : String.utf8EncodeChar c with
  | nil =>
      rw [hform] at hlength
      exact absurd hlength (Nat.ne_of_lt c.utf8Size_pos)
  | cons first rest =>
      rw [hform, List.cons_append] at hfirst
      rw [hform, List.length_cons] at hlength
      rw [List.cons_append, toText_cons, hfirst]
      simp only [← hlength, Nat.add_sub_cancel, List.drop_left]

/-- The form of a text is taken for it. -/
@[simp] theorem toText_ofText (t : Text) : toText (ofText t) = t := by
  induction t with
  | nil => rfl
  | cons c t ih => rw [ofText_cons, toText_encode_append, ih]

@[simp] theorem toText_ofString (s : String) : toText (ofString s) = s.toList :=
  toText_ofText s.toList

@[simp] theorem display_ofString (s : String) : display (ofString s) = s := by
  rw [display, toText_ofString, String.ofList_toList]

/-- Bytes are taken for a text from the left, a character or what is no character at a time. -/
theorem toText_induction {motive : Bytes → Prop} (nil : motive [])
    (char : ∀ c later, motive later → motive (String.utf8EncodeChar c ++ later))
    (broken : ∀ first rest, firstChar? (first :: rest) = none →
      motive (rest.drop (brokenLength (first :: rest) - 1)) → motive (first :: rest))
    (b : Bytes) : motive b := by
  induction hlength : b.length using Nat.strongRecOn generalizing b with
  | ind n ih =>
      subst hlength
      cases b with
      | nil => exact nil
      | cons first rest =>
          cases hfirst : firstChar? (first :: rest) with
          | some c =>
              obtain ⟨later, hlater⟩ := exists_eq_append_of_firstChar? hfirst
              have hshort : later.length < (first :: rest).length := by
                rw [hlater, List.length_append, String.length_utf8EncodeChar]
                exact Nat.lt_add_of_pos_left c.utf8Size_pos
              rw [hlater]
              exact char c later (ih later.length hshort later rfl)
          | none =>
              apply broken first rest hfirst
              apply ih _ _ _ rfl
              rw [List.length_drop, List.length_cons]
              exact Nat.lt_succ_of_le (Nat.sub_le _ _)

/-- What is taken for a text without a replacement is the form of that text. -/
theorem ofText_toText {b : Bytes} (h : replacement ∉ toText b) : ofText (toText b) = b := by
  induction b using toText_induction with
  | nil => rfl
  | char c later ih =>
      rw [toText_encode_append] at h ⊢
      rw [ofText_cons, ih fun hmem ↦ h (List.mem_cons_of_mem c hmem)]
  | broken first rest hbroken _ =>
      rw [toText_of_broken hbroken] at h
      exact absurd List.mem_cons_self h

theorem eq_ofString_iff {b : Bytes} {s : String} (h : replacement ∉ s.toList) :
    b = ofString s ↔ toText b = s.toList := by
  constructor
  · rintro rfl
    exact toText_ofString s
  · intro htext
    rw [ofString, ← htext, ofText_toText (htext ▸ h)]

theorem toText_eq_nil_iff {b : Bytes} : toText b = [] ↔ b = [] := by
  constructor
  · intro h
    rw [← ofText_toText (b := b) (by simp [h]), h, ofText_nil]
  · rintro rfl
    rfl

/-- Behind the first byte of the form of a character no byte is ASCII. -/
theorem high_of_mem_tail_encode {c : Char} {x : UInt8}
    (h : x ∈ (String.utf8EncodeChar c).tail) : 0x80 ≤ x := by
  -- each of these bytes has its highest bit set
  have hhigh (y : UInt8) : 0x80 ≤ y ||| 0x80 := by
    rw [UInt8.le_iff_toNat_le, UInt8.toNat_or]
    exact Nat.right_le_or
  rcases c.utf8Size_eq with h1 | h2 | h3 | h4
  · rw [String.utf8EncodeChar_eq_singleton h1] at h
    cases h
  · rw [String.utf8EncodeChar_eq_cons_cons h2] at h
    obtain rfl := List.mem_singleton.mp h
    exact hhigh _
  · rw [String.utf8EncodeChar_eq_cons_cons_cons h3] at h
    simp only [List.tail_cons, List.mem_cons, List.not_mem_nil, or_false] at h
    rcases h with rfl | rfl <;> exact hhigh _
  · rw [String.utf8EncodeChar_eq_cons_cons_cons_cons h4] at h
    simp only [List.tail_cons, List.mem_cons, List.not_mem_nil, or_false] at h
    rcases h with rfl | rfl | rfl <;> exact hhigh _

/-- An ASCII byte ends what can be the form of a character. -/
theorem firstChar?_append_ascii {b : Bytes} (hb : b ≠ []) (hnone : firstChar? b = none)
    {a : UInt8} (ha : a < 0x80) (rest : Bytes) : firstChar? (b ++ a :: rest) = none := by
  refine Option.eq_none_iff_forall_ne_some.mpr fun c hc ↦ ?_
  obtain ⟨later, hlater⟩ := exists_eq_append_of_firstChar? hc
  rcases List.append_eq_append_iff.mp hlater with ⟨more, hform, hmore⟩ | ⟨more, rfl, -⟩
  · cases more with
    | nil =>
        rw [List.append_nil] at hform
        have hfirst := firstChar?_encode_append c []
        rw [hform, List.append_nil, hnone] at hfirst
        cases hfirst
    | cons x more =>
        obtain ⟨rfl, -⟩ := List.cons.inj hmore
        obtain ⟨first, b, rfl⟩ := List.exists_cons_of_ne_nil hb
        have hmem : a ∈ (String.utf8EncodeChar c).tail := by
          rw [hform]
          exact List.mem_append_right b List.mem_cons_self
        exact absurd (high_of_mem_tail_encode hmem) (UInt8.not_le.mpr ha)
  · rw [firstChar?_encode_append] at hnone
    cases hnone

theorem beginsLongForm_ascii (first : UInt8) {a : UInt8} (ha : a < 0x80) :
    beginsLongForm first a = false := by
  have hforms : longForms.all (fun form ↦ 0x80 ≤ form.2.1) = true := by decide
  rw [beginsLongForm, List.any_eq_false]
  intro form hform
  have hlow : 0x80 ≤ form.2.1 := by simpa using List.all_eq_true.mp hforms form hform
  simp [UInt8.not_le.mpr (UInt8.lt_of_lt_of_le ha hlow)]

theorem brokenLength_append_ascii {b : Bytes} (hb : b ≠ []) {a : UInt8} (ha : a < 0x80)
    (rest : Bytes) : brokenLength (b ++ a :: rest) = brokenLength b := by
  match b with
  | [first] => simp [brokenLength, beginsLongForm_ascii first ha]
  | [first, second] => simp [brokenLength, UInt8.not_le.mpr ha]
  | first :: second :: third :: b => rfl

theorem brokenLength_le {b : Bytes} (hb : b ≠ []) : brokenLength b ≤ b.length := by
  match b with
  | [first] => exact Nat.le_refl 1
  | [first, second] =>
      rw [brokenLength]
      split <;> simp
  | first :: second :: third :: b =>
      rw [brokenLength]
      split
      · split <;> simp
      · simp

/-- Whatever stands before an ASCII character, the character is taken for itself. -/
theorem toText_append_ascii (b : Bytes) {a : UInt8} (ha : a < 0x80) (rest : Bytes) :
    toText (b ++ a :: rest) = toText b ++ toText (a :: rest) := by
  induction b using toText_induction with
  | nil => rfl
  | char c later ih =>
      rw [List.append_assoc, toText_encode_append, toText_encode_append, ih, List.cons_append]
  | broken first b hbroken ih =>
      have hne : first :: b ≠ [] := List.cons_ne_nil first b
      have hskip : brokenLength (first :: b) - 1 ≤ b.length :=
        Nat.sub_le_of_le_add (brokenLength_le hne)
      have hbroken' := firstChar?_append_ascii hne hbroken ha rest
      have hlength := brokenLength_append_ascii hne ha rest
      rw [List.cons_append] at hbroken' hlength ⊢
      rw [toText_of_broken hbroken', toText_of_broken hbroken, hlength,
        List.drop_append_of_le_length hskip, ih, List.cons_append]

theorem exists_encode_eq_of_size {c : Char} (h : c.utf8Size = 1) :
    ∃ a < 0x80, String.utf8EncodeChar c = [a] := by
  refine ⟨c.val.toUInt8, ?_, String.utf8EncodeChar_eq_singleton h⟩
  have hval : c.val.toNat ≤ 127 := Char.utf8Size_eq_one_iff.mp h
  rw [UInt8.lt_iff_toNat_lt, UInt32.toNat_toUInt8]
  exact Nat.lt_of_le_of_lt (Nat.mod_le _ _) (Nat.lt_succ_of_le hval)

section Ending

variable {ending : Text} (hending : ∀ c ∈ ending, c.utf8Size = 1)

include hending

/-- Whatever stands before ASCII characters, they are taken for themselves. -/
theorem toText_append_ofText (b : Bytes) : toText (b ++ ofText ending) = toText b ++ ending := by
  cases ending with
  | nil => simp
  | cons c ending =>
      obtain ⟨a, ha, hc⟩ := exists_encode_eq_of_size (hending c List.mem_cons_self)
      have hform : ofText (c :: ending) = a :: ofText ending := by rw [ofText_cons, hc]; rfl
      rw [hform, toText_append_ascii b ha, ← hform, toText_ofText]

/-- ASCII characters at the end are there because their form is. -/
theorem exists_eq_append_ofText {b : Bytes} {t : Text} (h : toText b = t ++ ending) :
    ∃ front, b = front ++ ofText ending ∧ toText front = t := by
  suffices hfront : ∃ front, b = front ++ ofText ending by
    obtain ⟨front, rfl⟩ := hfront
    rw [toText_append_ofText hending] at h
    exact ⟨front, rfl, List.append_cancel_right h⟩
  have hwhole : ∀ b, toText b = ending → b = ofText ending := by
    rintro b rfl
    exact (ofText_toText fun hmem ↦ absurd (hending replacement hmem) (by decide)).symm
  induction b using toText_induction generalizing t with
  | nil =>
      obtain ⟨-, rfl⟩ := List.append_eq_nil_iff.mp h.symm
      exact ⟨[], rfl⟩
  | char c later ih =>
      cases t with
      | nil => exact ⟨[], hwhole _ h⟩
      | cons d t =>
          rw [toText_encode_append] at h
          obtain ⟨front, rfl⟩ := ih (List.cons.inj h).2
          exact ⟨String.utf8EncodeChar c ++ front, (List.append_assoc _ _ _).symm⟩
  | broken first rest hbroken ih =>
      cases t with
      | nil => exact ⟨[], hwhole _ h⟩
      | cons d t =>
          rw [toText_of_broken hbroken] at h
          obtain ⟨front, hrest⟩ := ih (List.cons.inj h).2
          rw [← List.take_append_drop (brokenLength (first :: rest) - 1) rest, hrest]
          exact ⟨first :: (rest.take (brokenLength (first :: rest) - 1) ++ front), by simp⟩

end Ending
end Bytes
end ConfigSnapshot

import ConfigSnapshot.Text.Lines

/-!
# Cuts into lines

A cut is a list of pieces of the kind that the lines of a text are: a line feed stands only at
the end of a piece, and only the last piece may lack one. The lines of a text are a cut of it,
and a cut is the list of the lines of its concatenation. So a piece can be replaced by another
one that ends in the same way, and the other lines stay what they are.
-/

namespace ConfigSnapshot
namespace Text

inductive IsCut : List Text → Prop
  | nil : IsCut []
  | last {l : Text} (hne : l ≠ []) (hfree : '\n' ∉ l) : IsCut [l]
  | cons {x : Text} {ls : List Text} (hfree : '\n' ∉ x) (hrest : IsCut ls) :
      IsCut ((x ++ ['\n']) :: ls)

theorem addInFront_feed (ls : List Text) : addInFront '\n' ls = ['\n'] :: ls := by
  simp [addInFront]

theorem addInFront_nil {c : Char} (hc : c ≠ '\n') : addInFront c [] = [[c]] := by
  simp [addInFront, hc]

theorem addInFront_cons {c : Char} (hc : c ≠ '\n') (l : Text) (ls : List Text) :
    addInFront c (l :: ls) = (c :: l) :: ls := by
  simp [addInFront, hc]

theorem IsCut.addInFront {ls : List Text} (h : IsCut ls) (c : Char) :
    IsCut (addInFront c ls) := by
  by_cases hc : c = '\n'
  · rw [hc, addInFront_feed]
    exact .cons (x := []) List.not_mem_nil h
  · have hmem : ∀ {x : Text}, '\n' ∉ x → '\n' ∉ c :: x := by
      intro x hx
      rw [List.mem_cons, not_or]
      exact ⟨Ne.symm hc, hx⟩
    cases h with
    | nil =>
        rw [addInFront_nil hc]
        exact .last (List.cons_ne_nil c []) (hmem List.not_mem_nil)
    | last hne hfree =>
        rw [addInFront_cons hc]
        exact .last (List.cons_ne_nil c _) (hmem hfree)
    | cons hfree hrest =>
        rw [addInFront_cons hc, ← List.cons_append]
        exact .cons (hmem hfree) hrest

theorem isCut_lines (t : Text) : IsCut (lines t) := by
  induction t with
  | nil => exact .nil
  | cons c t ih => exact ih.addInFront c

theorem lines_append_feed {x : Text} (hx : '\n' ∉ x) (t : Text) :
    lines (x ++ '\n' :: t) = (x ++ ['\n']) :: lines t := by
  induction x with
  | nil => exact addInFront_feed (lines t)
  | cons c x ih =>
      rw [List.mem_cons, not_or] at hx
      rw [List.cons_append, lines_cons, ih hx.2, addInFront_cons (Ne.symm hx.1),
        List.cons_append]

theorem lines_of_not_mem {l : Text} (hne : l ≠ []) (hfree : '\n' ∉ l) : lines l = [l] := by
  induction l with
  | nil => exact absurd rfl hne
  | cons c l ih =>
      rw [List.mem_cons, not_or] at hfree
      rw [lines_cons]
      cases l with
      | nil => exact addInFront_nil (Ne.symm hfree.1)
      | cons d l => rw [ih (List.cons_ne_nil d l) hfree.2, addInFront_cons (Ne.symm hfree.1)]

theorem IsCut.lines_flatten {ls : List Text} (h : IsCut ls) : lines ls.flatten = ls := by
  induction h with
  | nil => rfl
  | last hne hfree => simpa using lines_of_not_mem hne hfree
  | cons hfree _ ih =>
      rw [List.flatten_cons, List.append_assoc, List.singleton_append,
        lines_append_feed hfree, ih]

/-- The text is made of whole lines, so that another text can follow without joining its last
line. -/
def IsWhole (t : Text) : Prop :=
  t = [] ∨ t.getLast? = some '\n'

instance (t : Text) : Decidable (IsWhole t) :=
  inferInstanceAs (Decidable (_ ∨ _))

theorem IsWhole.append {t v : Text} (ht : IsWhole t) (hv : IsWhole v) : IsWhole (t ++ v) := by
  rcases hv with rfl | hv
  · rwa [List.append_nil]
  · right
    rw [List.getLast?_append, hv, Option.some_or]

theorem addInFront_append {c : Char} {ls : List Text} (h : ls = [] → c = '\n')
    (more : List Text) : addInFront c (ls ++ more) = addInFront c ls ++ more := by
  by_cases hc : c = '\n'
  · rw [hc, addInFront_feed, addInFront_feed, List.cons_append]
  · obtain ⟨l, ls, rfl⟩ := List.exists_cons_of_ne_nil fun hnil ↦ hc (h hnil)
    rw [List.cons_append, addInFront_cons hc, addInFront_cons hc, List.cons_append]

theorem lines_append {t : Text} (h : IsWhole t) (v : Text) :
    lines (t ++ v) = lines t ++ lines v := by
  induction t with
  | nil => rfl
  | cons c t ih =>
      have hrest : IsWhole t ∧ (t = [] → c = '\n') := by
        cases t with
        | nil => exact ⟨Or.inl rfl, fun _ ↦ by simpa [IsWhole] using h⟩
        | cons d t =>
            refine ⟨Or.inr ?_, fun hnil ↦ absurd hnil (List.cons_ne_nil d t)⟩
            simpa [IsWhole] using h
      rw [List.cons_append, lines_cons, ih hrest.1, lines_cons]
      apply addInFront_append
      intro hnil
      apply hrest.2
      rw [← flatten_lines t, hnil, List.flatten_nil]

/-- The second text can stand for the first as a piece of a cut. -/
structure EndsAlike (l l' : Text) : Prop where
  ne_nil : l' ≠ []
  free : '\n' ∉ l → '\n' ∉ l'
  feed {x : Text} : '\n' ∉ x → l = x ++ ['\n'] → ∃ x', '\n' ∉ x' ∧ l' = x' ++ ['\n']

/-- A part of a line that is not its end can be replaced by any text without a line feed. -/
theorem endsAlike_of_replaced (v a : Text) {b r : Text} (hb : '\n' ∉ b) (hr : r ≠ []) :
    EndsAlike (v ++ (a ++ r)) (v ++ (b ++ r)) where
  ne_nil := by simp [hr]
  free := by
    simp only [List.mem_append, not_or]
    rintro ⟨hv, -, hfree⟩
    exact ⟨hv, hb, hfree⟩
  feed := by
    intro x hx heq
    obtain ⟨r', c, rfl⟩ : ∃ r' c, r = r' ++ [c] :=
      ⟨r.dropLast, r.getLast hr, (List.dropLast_concat_getLast hr).symm⟩
    have hsplit : (v ++ (a ++ r')) ++ [c] = x ++ ['\n'] := by
      simpa only [List.append_assoc] using heq
    obtain ⟨rfl, hc⟩ := List.append_inj' hsplit rfl
    simp only [List.mem_append, not_or] at hx
    refine ⟨v ++ (b ++ r'), ?_, ?_⟩
    · simp only [List.mem_append, not_or]
      exact ⟨hx.1, hb, hx.2.2⟩
    · rw [hc]
      simp only [List.append_assoc]

theorem IsCut.modify {ls : List Text} (h : IsCut ls) {i : Nat} {f : Text → Text}
    (hf : ∀ l, ls[i]? = some l → EndsAlike l (f l)) : IsCut (ls.modify i f) := by
  induction h generalizing i with
  | nil => simpa using IsCut.nil
  | @last l hne hfree =>
      cases i with
      | zero =>
          have hend := hf l rfl
          exact .last hend.ne_nil (hend.free hfree)
      | succ i => simpa using IsCut.last hne hfree
  | @cons x ls hfree hrest ih =>
      cases i with
      | zero =>
          obtain ⟨x', hx', heq⟩ := (hf (x ++ ['\n']) rfl).feed hfree rfl
          rw [List.modify_zero_cons, heq]
          exact .cons hx' hrest
      | succ i =>
          rw [List.modify_succ_cons]
          exact .cons hfree (ih fun l hl ↦ hf l (by simpa using hl))

/-- A line feed stands only at the end of a piece. -/
theorem IsCut.not_mem_dropLast {ls : List Text} (h : IsCut ls) {l : Text} (hl : l ∈ ls) :
    '\n' ∉ l.dropLast := by
  induction h with
  | nil => simp at hl
  | last _ hfree =>
      obtain rfl := List.mem_singleton.mp hl
      exact fun hmem ↦ hfree (List.dropLast_subset _ hmem)
  | cons hfree _ ih =>
      rcases List.mem_cons.mp hl with rfl | hl
      · rwa [List.dropLast_concat]
      · exact ih hl

/-- What comes before a piece of a cut is whole lines. -/
theorem IsCut.getLast?_flatten_take {ls : List Text} (h : IsCut ls) {i : Nat}
    (hi : i < ls.length) :
    (ls.take i).flatten = [] ∨ (ls.take i).flatten.getLast? = some '\n' := by
  induction h generalizing i with
  | nil => simp at hi
  | last _ _ =>
      obtain rfl : i = 0 := by simpa using hi
      exact Or.inl rfl
  | @cons x ls _ _ ih =>
      cases i with
      | zero => exact Or.inl rfl
      | succ i =>
          right
          rw [List.take_succ_cons, List.flatten_cons, List.getLast?_append]
          rcases ih (i := i) (by simpa using hi) with hnil | hlast
          · simp [hnil]
          · simp [hlast]

theorem length_addInFront {ls : List Text} (h : ls ≠ []) (c : Char) :
    (addInFront c ls).length = ls.length + if c = '\n' then 1 else 0 := by
  obtain ⟨l, ls, rfl⟩ := List.exists_cons_of_ne_nil h
  by_cases hc : c = '\n'
  · simp [addInFront, hc]
  · simp [addInFront, hc]

theorem length_lines_concat (t : Text) (c : Char) :
    (lines (t ++ [c])).length = t.count '\n' + 1 := by
  induction t with
  | nil => by_cases hc : c = '\n' <;> simp [lines_cons, addInFront, hc]
  | cons d t ih =>
      have hne : lines (t ++ [c]) ≠ [] := by
        intro hnil
        simp [hnil] at ih
      rw [List.cons_append, lines_cons, length_addInFront hne, ih, List.count_cons]
      by_cases hd : d = '\n' <;> simp [hd]

/-- The number of lines goes with that of the line feeds if the end of a text stays. -/
theorem length_lines_replaced (front x y : Text) {back : Text} (hback : back ≠ []) :
    (lines (front ++ (y ++ back))).length + x.count '\n' =
      (lines (front ++ (x ++ back))).length + y.count '\n' := by
  obtain ⟨b, c, rfl⟩ : ∃ b c, back = b ++ [c] :=
    ⟨back.dropLast, back.getLast hback, (List.dropLast_concat_getLast hback).symm⟩
  have hcount (z : Text) : (lines (front ++ (z ++ (b ++ [c])))).length =
      front.count '\n' + z.count '\n' + b.count '\n' + 1 := by
    have hconcat : front ++ (z ++ (b ++ [c])) = (front ++ (z ++ b)) ++ [c] := by
      simp only [List.append_assoc]
    rw [hconcat, length_lines_concat, List.count_append, List.count_append]
    omega
  rw [hcount, hcount]
  omega

end Text
end ConfigSnapshot

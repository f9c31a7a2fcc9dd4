import ConfigSnapshot.NixModule.Move
import ConfigSnapshot.NixModule.Scan
import ConfigSnapshot.Proofs.Text.Trim
import ConfigSnapshot.Proofs.Text.Cut

/-!
# The line that assigns the configuration

Such a line is an indentation, the words `config =`, a space and a rest. The move acts on these
words and not on a later occurrence of them. What it leaves is inert: a scan takes it neither
for a brace, nor for `let` or `in`, nor for another assignment.
-/

namespace ConfigSnapshot
namespace NixModule

open Text

/-- A line that a scan passes over without noticing anything. -/
structure IsInert (line : Text) : Prop where
  brace : startsWithBrace line = false
  letWord : trim line ≠ "let".toList
  inWord : trim line ≠ "in".toList
  config : assignsConfig line = false

instance (line : Text) : Decidable (IsInert line) :=
  decidable_of_iff (startsWithBrace line = false ∧ trim line ≠ "let".toList ∧
      trim line ≠ "in".toList ∧ assignsConfig line = false)
    ⟨fun ⟨hbrace, hlet, hin, hconfig⟩ ↦ ⟨hbrace, hlet, hin, hconfig⟩,
      fun h ↦ ⟨h.brace, h.letWord, h.inWord, h.config⟩⟩

theorem isIn_iff {line : Text} : isIn line = true ↔ trim line = "in".toList := by
  simp only [isIn, decide_eq_true_eq]

theorem assignsConfig_iff {line : Text} :
    assignsConfig line = true ↔ "config = ".toList <+: trim line :=
  List.isPrefixOf_iff_prefix

theorem startsWithBrace_append {v x : Text} {c : Char} (hv : AllBlank v)
    (hx : x.head? = some c) (hc : c ≠ '{') : startsWithBrace (v ++ x) = false := by
  cases v with
  | nil => simp [startsWithBrace, hx, hc]
  | cons d v =>
      have hd : d ≠ '{' := by
        rintro rfl
        have hblank := hv '{' List.mem_cons_self
        exact absurd hblank (by decide)
      simp [startsWithBrace, hd]

theorem exists_of_assignsConfig {line : Text} (h : assignsConfig line = true) :
    ∃ v r, AllBlank v ∧ line = v ++ ("config =".toList ++ ' ' :: r) := by
  obtain ⟨v, w, hv, -, hline⟩ := exists_trim line
  obtain ⟨q, hq⟩ := assignsConfig_iff.mp h
  refine ⟨v, q ++ w, hv, ?_⟩
  calc
    line = v ++ (trim line ++ w) := hline
    _ = v ++ (("config = ".toList ++ q) ++ w) := by rw [hq]
    _ = v ++ ("config =".toList ++ ' ' :: (q ++ w)) := by
      rw [show "config = ".toList = "config =".toList ++ [' '] from rfl]
      simp only [List.append_assoc, List.cons_append, List.nil_append]

theorem startsWithBrace_of_assignsConfig {line : Text} (h : assignsConfig line = true) :
    startsWithBrace line = false := by
  obtain ⟨v, r, hv, rfl⟩ := exists_of_assignsConfig h
  exact startsWithBrace_append hv (c := 'c') rfl (by decide)

theorem trim_ne_of_assignsConfig {line word : Text} (h : assignsConfig line = true)
    (hword : "config = ".toList.isPrefixOf word = false) : trim line ≠ word := by
  intro heq
  rw [assignsConfig, heq, hword] at h
  exact Bool.false_ne_true h

theorem isIn_of_assignsConfig {line : Text} (h : assignsConfig line = true) :
    isIn line = false := by
  rw [Bool.eq_false_iff, ne_eq, isIn_iff]
  exact trim_ne_of_assignsConfig h rfl

theorem replaceFirst_cons_of_ne {a c : Char} (h : a ≠ c) (target replacement cs : Text) :
    replaceFirst (a :: target) replacement (c :: cs) =
      c :: replaceFirst (a :: target) replacement cs := by
  rw [replaceFirst, if_neg (by simp [List.isPrefixOf, h])]

theorem moveLine_append {v : Text} (hv : AllBlank v) (stem r : Text) :
    moveLine stem (v ++ ("config =".toList ++ r)) =
      v ++ (("config.snapshot.".toList ++ stem ++ " =".toList) ++ r) := by
  induction v with
  | nil => exact replaceFirst_append _ r (by decide)
  | cons c v ih =>
      have hc : 'c' ≠ c := by
        rintro rfl
        exact absurd (hv 'c' List.mem_cons_self) (by decide)
      have hrest := ih fun d hd ↦ hv d (List.mem_cons_of_mem c hd)
      rw [moveLine] at hrest ⊢
      rw [List.cons_append, List.cons_append, ← hrest]
      exact replaceFirst_cons_of_ne hc "onfig =".toList _ _

theorem isInert_snapshot {v : Text} (hv : AllBlank v) (r : Text) :
    IsInert (v ++ ("config.snapshot.".toList ++ r)) := by
  have hsolid : IsSolid "config.snapshot.".toList :=
    ⟨⟨'c', rfl, by decide⟩, ⟨'.', by decide, by decide⟩⟩
  have htrim := trim_append_solid hv hsolid r
  refine ⟨startsWithBrace_append hv (c := 'c') rfl (by decide), ?_, ?_, ?_⟩
  · rw [htrim]
    exact fun h ↦ absurd (congrArg List.head? h) (by simp)
  · rw [htrim]
    exact fun h ↦ absurd (congrArg List.head? h) (by simp)
  · rw [assignsConfig, htrim]
    rfl

theorem isInert_moveLine {line : Text} (h : assignsConfig line = true) (stem : Text) :
    IsInert (moveLine stem line) := by
  obtain ⟨v, r, hv, rfl⟩ := exists_of_assignsConfig h
  rw [moveLine_append hv, List.append_assoc, List.append_assoc]
  exact isInert_snapshot hv _

theorem moveLine_ne {line : Text} (h : assignsConfig line = true) (stem : Text) :
    moveLine stem line ≠ line := by
  intro heq
  have hinert := (isInert_moveLine h stem).config
  rw [heq, h] at hinert
  exact absurd hinert (by decide)

theorem endsAlike_moveLine {line : Text} (h : assignsConfig line = true) {stem : Text}
    (hstem : '\n' ∉ stem) : EndsAlike line (moveLine stem line) := by
  obtain ⟨v, r, hv, rfl⟩ := exists_of_assignsConfig h
  rw [moveLine_append hv]
  apply endsAlike_of_replaced v _ _ (List.cons_ne_nil ' ' r)
  simp only [List.mem_append, not_or]
  exact ⟨⟨by decide, hstem⟩, by decide⟩

end NixModule
end ConfigSnapshot

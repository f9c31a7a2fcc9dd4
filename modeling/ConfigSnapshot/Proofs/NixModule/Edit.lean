import ConfigSnapshot.Proofs.NixModule.Chain

/-!
# The edit of a move

A move puts the key into the words `config =` at the indentation of one line and keeps every
other character of the module, line ends included. A later occurrence of the words on the line
stays as it is. The only line feeds that come in are those of the stem.
-/

namespace ConfigSnapshot
namespace NixModule

open Text

/-- No occurrence of the words on a line is in front of the one at its indentation. -/
theorem length_indent_le {indent rest before after : Text} (hindent : AllBlank indent)
    (h : indent ++ ("config =".toList ++ rest) = before ++ ("config =".toList ++ after)) :
    indent.length ≤ before.length := by
  apply Nat.le_of_not_lt
  intro hlt
  -- a shorter front would put the first letter of the words into the indentation
  have hget := congrArg (·[before.length]?) h
  simp only [List.getElem?_append_left hlt, List.getElem?_append_right (Nat.le_refl _),
    Nat.sub_self] at hget
  have hmem : 'c' ∈ indent := List.mem_of_getElem? hget
  exact absurd (hindent 'c' hmem) (by decide)

theorem not_mem_indent {t line indent rest : Text} {i : Nat} (hline : (lines t)[i]? = some line)
    (h : line = indent ++ rest) (hrest : rest ≠ []) : '\n' ∉ indent := by
  have hfree := (isCut_lines t).not_mem_dropLast (List.mem_of_getElem? hline)
  rw [h, List.dropLast_append_of_ne_nil hrest] at hfree
  exact fun hmem ↦ hfree (List.mem_append_left _ hmem)

/-- Under a stem without a line feed a move changes the line of its target and no other. -/
theorem getElem?_lines_ne_iff {t stem u : Text} {i : Nat} (h : moveConfig t stem = some u)
    (hi : (scan t).target = some i) (hstem : '\n' ∉ stem) (j : Nat) :
    (lines u)[j]? ≠ (lines t)[j]? ↔ j = i := by
  rw [target_scan] at hi
  obtain ⟨later, htargets⟩ := List.head?_eq_some_iff.mp hi
  obtain ⟨w, hw, hlines, -⟩ := exists_moveConfig htargets hstem
  obtain rfl : u = w := Option.some.inj (h.symm.trans hw)
  obtain ⟨line, hline, hconfig⟩ := assignsConfig_of_mem_targets (List.mem_of_head? hi)
  rw [hlines, List.getElem?_modify]
  by_cases hij : i = j
  · subst hij
    simp [hline, moveLine_ne hconfig stem]
  · simp [hij, Ne.symm hij]

theorem exists_words_of_moveConfig {t stem u : Text} (h : moveConfig t stem = some u) :
    ∃ i line indent r, (scan t).target = some i ∧ (lines t)[i]? = some line ∧ AllBlank indent ∧
      line = indent ++ ("config =".toList ++ ' ' :: r) ∧
        t = ((lines t).take i).flatten ++ (indent ++
          ("config =".toList ++ ' ' :: (r ++ ((lines t).drop (i + 1)).flatten))) ∧
          u = ((lines t).take i).flatten ++ (indent ++
            (("config.snapshot.".toList ++ stem ++ " =".toList) ++
              ' ' :: (r ++ ((lines t).drop (i + 1)).flatten))) := by
  obtain ⟨i, line, hi, hline, hconfig, ht, hu⟩ := exists_lines_of_moveConfig h
  obtain ⟨indent, r, hindent, hwords⟩ := exists_of_assignsConfig hconfig
  refine ⟨i, line, indent, r, hi, hline, hindent, hwords, ?_, ?_⟩
  · rw [hwords] at ht
    simpa only [List.append_assoc, List.cons_append] using ht
  · rw [hwords, moveLine_append hindent] at hu
    simpa only [List.append_assoc, List.cons_append] using hu

theorem count_key (stem : Text) :
    ("config.snapshot.".toList ++ stem ++ " =".toList).count '\n' = stem.count '\n' := by
  have hkey : "config.snapshot.".toList.count '\n' = 0 := by decide
  have hsign : " =".toList.count '\n' = 0 := by decide
  rw [List.count_append, List.count_append, hkey, hsign, Nat.zero_add, Nat.add_zero]

theorem length_lines_moveConfig {t stem u : Text} (h : moveConfig t stem = some u) :
    (lines u).length = (lines t).length + stem.count '\n' := by
  obtain ⟨i, line, indent, r, -, -, -, -, ht, hu⟩ := exists_words_of_moveConfig h
  have hfeeds := length_lines_replaced (((lines t).take i).flatten ++ indent)
    "config =".toList ("config.snapshot.".toList ++ stem ++ " =".toList)
    (List.cons_ne_nil ' ' (r ++ ((lines t).drop (i + 1)).flatten))
  rw [List.append_assoc _ indent, List.append_assoc _ indent, ← ht, ← hu] at hfeeds
  have hwords : "config =".toList.count '\n' = 0 := by decide
  rwa [hwords, Nat.add_zero, count_key] at hfeeds

/-- A move changes nothing but the words at the indentation of its target. -/
theorem moveConfig_edits_indented_words {t stem u : Text} (h : moveConfig t stem = some u) :
    ∃ i line indent rest,
      (scan t).target = some i ∧ (lines t)[i]? = some line ∧
        let front := ((lines t).take i).flatten
        t = front ++ (indent ++ ("config =".toList ++ rest)) ∧
          u = front ++ (indent ++
            (("config.snapshot.".toList ++ stem ++ " =".toList) ++ rest)) ∧
          (front = [] ∨ front.getLast? = some '\n') ∧
          (∀ c ∈ indent, isBlank c = true ∧ c ≠ '\n') ∧
          rest.head? = some ' ' ∧
          indent ++ "config =".toList <+: line ∧
          (∀ before after, line = before ++ ("config =".toList ++ after) →
            indent.length ≤ before.length) ∧
          (lines u).length = (lines t).length + stem.count '\n' ∧
          ('\n' ∉ stem → (lines u).length = (lines t).length ∧
            ∀ j, (lines u)[j]? ≠ (lines t)[j]? ↔ j = i) := by
  obtain ⟨i, line, indent, r, hi, hline, hindent, hwords, ht, hu⟩ := exists_words_of_moveConfig h
  have hlength := length_lines_moveConfig h
  refine ⟨i, line, indent, _, hi, hline, ht, hu, ?_, ?_, rfl, ?_, ?_, hlength, ?_⟩
  · exact (isCut_lines t).getLast?_flatten_take (List.getElem?_eq_some_iff.mp hline).1
  · intro c hc
    refine ⟨hindent c hc, ?_⟩
    rintro rfl
    exact not_mem_indent hline hwords (by simp) hc
  · rw [hwords, ← List.append_assoc]
    exact List.prefix_append _ _
  · intro before after hafter
    exact length_indent_le hindent (hwords.symm.trans hafter)
  · intro hstem
    refine ⟨?_, getElem?_lines_ne_iff h hi hstem⟩
    rw [hlength, List.count_eq_zero_of_not_mem hstem, Nat.add_zero]

theorem moveConfig_edits_indented_words_crlf :
    let t := "\x7b \x7d:\r\n\x7b\r\n\u3000\tconfig = x.config = 1;\r".toList
    let u := "\x7b \x7d:\r\n\x7b\r\n\u3000\tconfig.snapshot.a\nb = x.config = 1;\r".toList
    moveConfig t "a\nb".toList = some u ∧ (lines u).length = (lines t).length + 1 := by
  intro t u
  have hu : moveConfig t "a\nb".toList = some u := by decide
  obtain ⟨i, line, indent, rest, -, -, -, -, -, -, -, -, -, hlength, -⟩ :=
    moveConfig_edits_indented_words hu
  exact ⟨hu, hlength⟩

end NixModule
end ConfigSnapshot

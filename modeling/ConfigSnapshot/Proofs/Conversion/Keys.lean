import ConfigSnapshot.Proofs.Conversion.Contents
import ConfigSnapshot.Proofs.NixModule.Edit

/-!
# The keys of the modules of a directory

A module is moved under the text of its name without the ending. Only a name that is nothing but
the ending is kept whole, and so the one pair of texts that can meet under a key is `.nix` and
`.nix.nix`. Names that are no text can be taken for the same one, and then they meet as well.
-/

namespace ConfigSnapshot
namespace Path

/-- The last dot is taken away with what is behind it, unless it is the first character. -/
theorem stem_append_dot (front : Bytes) {ending : Bytes} (h : dot ∉ ending) :
    stem (front ++ dot :: ending) = if front = [] then dot :: ending else front := by
  have hreverse : (front ++ dot :: ending).reverse = ending.reverse ++ dot :: front.reverse := by
    simp
  have hdrop : (ending.reverse ++ dot :: front.reverse).dropWhile (· ≠ dot) =
      dot :: front.reverse := by
    rw [List.dropWhile_append_of_pos, List.dropWhile_cons_of_neg (by simp)]
    intro b hb
    have hne : b ≠ dot := fun heq ↦ h (heq ▸ List.mem_reverse.mp hb)
    simpa using hne
  rw [stem, hreverse, hdrop]
  by_cases hfront : front = []
  · subst hfront
    rfl
  · have hne : front.reverse ≠ [] := by rwa [ne_eq, List.reverse_eq_nil_iff]
    rw [if_neg hfront]
    split
    · next heq => cases heq
    · next heq => exact absurd (List.cons.inj heq).2 hne
    · next heq => rw [← (List.cons.inj heq).2, List.reverse_reverse]

end Path

namespace Conversion

open Text NixModule FileTree

/-- The text of the stem of a module's name is the text of the name without the ending. -/
theorem exists_toText_stem {name : Bytes} (h : isModuleName name = true) :
    ∃ base : Text, name.toText = base ++ ".nix".toList ∧
      (Path.stem name).toText = if base = [] then ".nix".toList else base := by
  obtain ⟨front, rfl⟩ := isModuleName_iff.mp h
  refine ⟨Bytes.toText front, Bytes.toText_append_ofText utf8Size_of_mem_ending front, ?_⟩
  have hstem : Path.stem (front ++ (".nix" : Bytes)) =
      if front = [] then (".nix" : Bytes) else front :=
    @Path.stem_append_dot front "nix" (by decide)
  rw [hstem]
  simp only [Bytes.toText_eq_nil_iff]
  split
  · exact Bytes.toText_ofString ".nix"
  · rfl

/-- Two modules have one key where their names read alike, or where one is nothing but the ending
and the other has it twice. -/
theorem toText_stem_eq_iff {m n : Bytes} (hm : isModuleName m = true)
    (hn : isModuleName n = true) :
    (Path.stem m).toText = (Path.stem n).toText ↔ m.toText = n.toText ∨
      (m = ".nix" ∧ n = ".nix.nix") ∨ (m = ".nix.nix" ∧ n = ".nix") := by
  have hbare (name : Bytes) : name = ".nix" ↔ name.toText = [] ++ ".nix".toList :=
    Bytes.eq_ofString_iff (by decide)
  have htwice (name : Bytes) : name = ".nix.nix" ↔ name.toText = ".nix".toList ++ ".nix".toList :=
    Bytes.eq_ofString_iff (by decide)
  obtain ⟨a, hma, hkeym⟩ := exists_toText_stem hm
  obtain ⟨b, hnb, hkeyn⟩ := exists_toText_stem hn
  rw [hkeym, hkeyn, hbare, hbare, htwice, htwice, hma, hnb]
  simp only [List.append_left_inj]
  generalize ".nix".toList = ending
  by_cases ha : a = []
  · subst ha
    by_cases hb : b = []
    · simp [hb]
    · simp [hb, Ne.symm hb, @eq_comm _ ending b]
  · by_cases hb : b = []
    · simp [ha, hb]
    · simp [ha, hb]

/-- Two names read alike only by U+FFFD, which then stands in one of them for bytes that are no
text. -/
theorem replacement_mem_of_toText_eq {m n : Bytes} (hne : m ≠ n) (h : m.toText = n.toText) :
    Bytes.replacement ∈ m.toText ∧ ¬ ∃ s s' : String, m = s ∧ n = s' := by
  constructor
  · by_contra hplain
    apply hne
    rw [← Bytes.ofText_toText hplain, h, Bytes.ofText_toText (h ▸ hplain)]
  · rintro ⟨s, s', rfl, rfl⟩
    rw [Bytes.toText_ofString, Bytes.toText_ofString, String.toList_inj] at h
    exact hne (congrArg Bytes.ofString h)

/-- Whatever text a module holds, a visit that converts it puts the key behind `config.snapshot`
and keeps the rest of the text. -/
def InsertsKey (path : Bytes) (key : Text) : Prop :=
  ∀ (t : FileTree) (loc : Location) (text : String), t.LeadsTo path loc text.toUTF8 →
    (visitModule t .write path).2.outcome = .ok .converted →
      ∃ front rest : Text, text.toList = front ++ ("config =".toList ++ rest) ∧
        (visitModule t .write path).1.get? loc = some (.file (String.ofList (front ++
          (("config.snapshot.".toList ++ key ++ " =".toList) ++ rest))).toUTF8)

theorem insertsKey_of_fileName? {path name : Bytes} (hname : Path.fileName? path = some name) :
    InsertsKey path (Path.stem name).toText := by
  intro t loc text hleads hconverted
  cases hmove : moveConfig text.toList (snapshotKey path) with
  | none =>
      rw [visitModule_of_none .write hleads hname hmove] at hconverted
      cases hconverted
  | some moved =>
      obtain ⟨i, line, indent, r, -, -, -, -, htext, hmoved⟩ := exists_words_of_moveConfig hmove
      rw [snapshotKey_of_fileName? hname] at hmoved
      refine ⟨((lines text.toList).take i).flatten ++ indent,
        ' ' :: (r ++ ((lines text.toList).drop (i + 1)).flatten), ?_, ?_⟩
      · rw [List.append_assoc]
        exact htext
      · rw [visitModule_write_of_some hleads hname hmove, List.append_assoc, ← hmoved]
        exact get?_setContent_self hleads.get?

/-- The keys of the modules of a directory are distinct if their names read differently and the
pair that meets is not among them. -/
theorem nodup_map_key_iff {names : List Bytes} (hnodup : names.Nodup)
    (hnames : ∀ name ∈ names, isModuleName name = true) :
    (names.map fun name ↦ (Path.stem name).toText).Nodup ↔
      (names.map Bytes.toText).Nodup ∧
        ¬ ((".nix" : Bytes) ∈ names ∧ (".nix.nix" : Bytes) ∈ names) := by
  constructor
  · intro hkeys
    constructor
    · refine hnodup.map_on fun m hm n hn htext ↦ ?_
      exact List.inj_on_of_nodup_map hkeys hm hn
        ((toText_stem_eq_iff (hnames m hm) (hnames n hn)).mpr (Or.inl htext))
    · rintro ⟨hbare, htwice⟩
      have hkey := (toText_stem_eq_iff (hnames _ hbare) (hnames _ htwice)).mpr
        (Or.inr (Or.inl ⟨rfl, rfl⟩))
      exact absurd (List.inj_on_of_nodup_map hkeys hbare htwice hkey) (by decide)
  · rintro ⟨htexts, hpair⟩
    refine hnodup.map_on fun m hm n hn hkey ↦ ?_
    rcases (toText_stem_eq_iff (hnames m hm) (hnames n hn)).mp hkey with
      htext | ⟨rfl, rfl⟩ | ⟨rfl, rfl⟩
    · exact List.inj_on_of_nodup_map htexts hm hn htext
    · exact absurd ⟨hm, hn⟩ hpair
    · exact absurd ⟨hn, hm⟩ hpair

/-- A directory with the pair that meets, and with a module that has two dots in its name and a
configuration to move. -/
def dottedModules : FileTree where
  entries :=
    [([⟨"n", by decide⟩], .directory),
      ([⟨".nix", by decide⟩, ⟨"n", by decide⟩], .file "".toUTF8),
      ([⟨".nix.nix", by decide⟩, ⟨"n", by decide⟩], .file "".toUTF8),
      ([⟨"a.b.nix", by decide⟩, ⟨"n", by decide⟩],
        .file "\x7b \x7d:\n\x7b\n  config = a;\n\x7d\n".toUTF8)]
  workDir := []
  distinct := by decide
  rooted := by decide
  workDir_eq := rfl

theorem modulesIn_dottedModules : modulesIn dottedModules "n" =
    .ok (([".nix", ".nix.nix", "a.b.nix"] : List Bytes).map (Path.join "n")) := by
  have hlist : dottedModules.list "n" = .ok [".nix", ".nix.nix", "a.b.nix"] := by rfl
  have hfilter : (([".nix", ".nix.nix", "a.b.nix"] : List Bytes).map (Path.join "n")).filter
      (isModule dottedModules) =
        ([".nix", ".nix.nix", "a.b.nix"] : List Bytes).map (Path.join "n") := by decide
  exact modulesIn_of_pairwise hlist hfilter (by decide)

/-- A directory with two modules whose names are no texts. -/
def unreadNames : FileTree where
  entries :=
    [([⟨"k", by decide⟩], .directory),
      ([⟨0xFE :: (".nix" : Bytes), by decide⟩, ⟨"k", by decide⟩],
        .file "\x7b \x7d:\n\x7b\n  config = a;\n\x7d\n".toUTF8),
      ([⟨0xFF :: (".nix" : Bytes), by decide⟩, ⟨"k", by decide⟩],
        .file "\x7b \x7d:\n\x7b\n  config = b;\n\x7d\n".toUTF8)]
  workDir := []
  distinct := by decide
  rooted := by decide
  workDir_eq := rfl

end Conversion
end ConfigSnapshot

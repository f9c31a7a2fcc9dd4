import ConfigSnapshot.Command.Arguments

/-!
# What reading an argument does

Each function of the reader is described once by what it can have done if it did not refuse. What
is kept while arguments are read follows from these descriptions.
-/

namespace ConfigSnapshot
namespace Command

/-- Whether a switch is on. No run is asked for help or version. -/
def Options.isOn (options : Options) : Switch → Bool
  | .verbose => options.verbose
  | .dryRun => options.dryRun
  | .manual => options.manual
  | .markdown => options.markdown
  | .help | .version => false

theorem Options.isOn_of_fill {options options' : Options} {slot : OpenSlot}
    (h : options.fill slot = .ok options') : options'.isOn = options.isOn := by
  revert h
  fun_cases options.fill slot <;> intro h <;> cases h
  all_goals funext switch; cases switch <;> rfl

/-- The options differ by one switch, which is on in the second. -/
structure Options.IsTurnedOn (options options' : Options) (switch : Switch) : Prop where
  isOn : ∀ s, options'.isOn s = (options.isOn s || s = switch)
  color : options'.color? = options.color?
  completion : options'.completion? = options.completion?
  directory : options'.directory? = options.directory?

namespace Reading

variable {r r' : Reading}

theorem exists_of_map_more {α : Type} {e : Except UsageError α} {f : α → Reading}
    (h : e.map (fun a ↦ Progress.more (f a)) = .ok (.more r)) : ∃ a, e = .ok a ∧ f a = r := by
  cases e with
  | error e => cases h
  | ok a => exact ⟨a, rfl, Progress.more.inj (Except.ok.inj h)⟩

theorem settle_cases (h : r.settle = .ok r') :
    (r.open? = none ∧ r' = r) ∨
      ∃ slot options, r.open? = some slot ∧ r.options.fill slot = .ok options ∧
        r' = { r with options := options, open? := none } := by
  unfold settle at h
  split at h
  · next hopen => exact Or.inl ⟨hopen, (Except.ok.inj h).symm⟩
  · next slot hopen =>
      split at h
      · next options hfill => exact Or.inr ⟨slot, options, hopen, hfill, (Except.ok.inj h).symm⟩
      · cases h

theorem exists_of_turnOn {switch : Switch} (h : r.turnOn switch = .ok (.more r')) :
    ∃ mid options, r.settle = .ok mid ∧ mid.options.IsTurnedOn options switch ∧
      r' = { mid with options := options } := by
  unfold turnOn at h
  split at h
  · cases h
  · next mid hsettle =>
      -- help and version end the reading, and a switch that is on already is an error
      cases switch <;> simp only [reduceCtorEq, Except.ok.injEq] at h <;> split at h <;>
        try cases h
      all_goals
        refine ⟨mid, _, hsettle, ?_, rfl⟩
        refine ⟨fun s ↦ ?_, rfl, rfl, rfl⟩
        cases s <;> simp [Options.isOn]

theorem exists_of_name {slot : Slot} {value? : Option String}
    (h : r.name slot value? = .ok (.more r')) :
    ∃ mid, r.settle = .ok mid ∧
      ((value? = none ∧ r' = { mid with open? := some ⟨slot, none⟩ }) ∨
        ∃ value, value? = some value ∧
          { mid with open? := some ⟨slot, some value⟩ }.settle = .ok r') := by
  unfold name at h
  cases value? with
  | none =>
      obtain ⟨mid, hsettle, rfl⟩ := exists_of_map_more h
      exact ⟨mid, hsettle, Or.inl ⟨rfl, rfl⟩⟩
  | some value =>
      cases hsettle : r.settle with
      | error e =>
          rw [hsettle] at h
          cases h
      | ok mid =>
          rw [hsettle] at h
          obtain ⟨judged, hjudged, rfl⟩ := exists_of_map_more h
          exact ⟨mid, rfl, Or.inr ⟨value, rfl, hjudged⟩⟩

theorem exists_of_readDirectory {argument : String}
    (h : r.readDirectory argument = .ok (.more r')) :
    r.hasDirectory = false ∧ ∃ mid, r.settle = .ok mid ∧
      r' = { mid with open? := some ⟨.directory, some argument⟩, hasDirectory := true } := by
  unfold readDirectory at h
  split at h
  · cases h
  · next hno =>
      obtain ⟨mid, hsettle, rfl⟩ := exists_of_map_more h
      exact ⟨Bool.not_eq_true _ ▸ hno, mid, hsettle, rfl⟩

theorem readPlain_cases {argument : String} {progress : Progress}
    (h : r.readPlain argument = .ok progress) :
    (∃ slot, r.open? = some ⟨slot, none⟩ ∧
        progress = .more { r with open? := some ⟨slot, some argument⟩ }) ∨
      r.readDirectory argument = .ok progress := by
  unfold readPlain at h
  split at h
  · next slot hopen => exact Or.inl ⟨slot, hopen, (Except.ok.inj h).symm⟩
  · exact Or.inr h

theorem readLong_cases {name : String} {value? : Option String} {progress : Progress}
    (h : r.readLong name value? = .ok progress) :
    (∃ switch, Switch.ofName? name = some switch ∧ value? = none ∧
        r.turnOn switch = .ok progress) ∨
      ∃ slot, Switch.ofName? name = none ∧ Slot.ofName? name = some slot ∧
        r.name slot value? = .ok progress := by
  unfold readLong at h
  split at h
  · next switch hswitch => exact Or.inl ⟨switch, hswitch, rfl, h⟩
  · cases h
  · next hnone =>
      split at h
      · next slot hslot => exact Or.inr ⟨slot, hnone, hslot, h⟩
      · cases h

theorem readLetters_cons_cases {letter : Char} {letters : List Char} {progress : Progress}
    (h : r.readLetters (letter :: letters) = .ok progress) :
    ∃ switch, Switch.ofLetter? letter = some switch ∧
      ((∃ mid, r.turnOn switch = .ok (.more mid) ∧ mid.readLetters letters = .ok progress) ∨
        ∃ request, progress = .enough request ∧ r.turnOn switch = .ok (.enough request)) := by
  simp only [readLetters] at h
  split at h
  · cases h
  · next switch hswitch =>
      refine ⟨switch, hswitch, ?_⟩
      split at h
      · next mid hturn => exact Or.inl ⟨mid, hturn, h⟩
      · next hstop =>
          cases progress with
          | more mid => exact absurd h (hstop mid)
          | enough request => exact Or.inr ⟨request, rfl, h⟩

/-- What reading an argument comes to before any `--`, by the dashes at its front. -/
inductive ReadsAs (r : Reading) (argument : String) (progress : Except UsageError Progress) : Prop
  | dashes (eq_dashes : argument = "--")
      (eq_more : progress = .ok (.more { r with onlyDirectories := true }))
  | long (option : List Char) (toList_eq : argument.toList = '-' :: '-' :: option)
      (ne_dashes : argument ≠ "--")
      (eq_readLong : progress = r.readLong (splitValue option).1 (splitValue option).2)
  | letters (letter : Char) (rest : List Char) (toList_eq : argument.toList = '-' :: letter :: rest)
      (letter_ne : letter ≠ '-') (ne_dashes : argument ≠ "--")
      (eq_readLetters : progress = r.readLetters (letter :: rest))
  | plain (toList_ne : ∀ letter rest, argument.toList ≠ '-' :: letter :: rest)
      (ne_dashes : argument ≠ "--") (eq_readPlain : progress = r.readPlain argument)

theorem readsAs_read (h : r.onlyDirectories = false) (argument : String) :
    r.ReadsAs argument (r.read argument) := by
  have hdashes : argument = "--" ↔ argument.toList = ['-', '-'] := String.toList_inj.symm
  unfold Reading.read
  rw [h, if_neg Bool.false_ne_true]
  split
  · next hlist => exact .dashes (hdashes.mpr hlist) rfl
  · next option hnot hlist =>
      refine .long option hlist (mt hdashes.mp fun heq ↦ hnot ?_) rfl
      rw [hlist, List.cons.injEq, List.cons.injEq] at heq
      exact heq.2.2
  · next letter rest _ hnot hlist =>
      refine .letters letter rest hlist hnot (mt hdashes.mp fun heq ↦ hnot ?_) rfl
      rw [hlist, List.cons.injEq, List.cons.injEq] at heq
      exact heq.2.1
  · next _ _ hlist => exact .plain hlist (mt hdashes.mp (hlist '-' [])) rfl

theorem read_of_onlyDirectories (h : r.onlyDirectories = true) (argument : String) :
    r.read argument = r.readDirectory argument := by
  rw [read, if_pos h]

theorem exists_of_readAll_nil {request : Request} (h : r.readAll [] = .ok request) :
    ∃ last, r.settle = .ok last ∧ request = .run last.options ∧
      (last.options.asksForText = false → last.options.directory?.isSome = true) := by
  simp only [readAll] at h
  split at h
  · cases h
  · next last hsettle =>
      split at h
      · cases h
      · next hgiven =>
          refine ⟨last, hsettle, (Except.ok.inj h).symm, fun hnone ↦ ?_⟩
          rw [hnone, Bool.not_false, Bool.and_true] at hgiven
          exact Option.isSome_iff_ne_none.mpr (mt Option.isNone_iff_eq_none.mpr hgiven)

theorem readAll_cons_cases {argument : String} {rest : List String} {request : Request}
    (h : r.readAll (argument :: rest) = .ok request) :
    r.read argument = .ok (.enough request) ∨
      ∃ mid, r.read argument = .ok (.more mid) ∧ mid.readAll rest = .ok request := by
  simp only [readAll] at h
  split at h
  · cases h
  · next hstop =>
      obtain rfl := Except.ok.inj h
      exact Or.inl hstop
  · next mid hmore => exact Or.inr ⟨mid, hmore, h⟩

end Reading
end Command
end ConfigSnapshot

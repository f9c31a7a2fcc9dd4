import ConfigSnapshot.Proofs.Command.Reading
import Mathlib.Data.List.TakeWhile

/-!
# The switches that are on

Which switches are on in the end can be read off the arguments: a switch is on if and only if it
is given as an option, by its name or in a group of letters, before any `--`. This is kept from
one argument to the next, also while the value of a slot is still to be judged.
-/

namespace ConfigSnapshot
namespace Command

namespace Switch

theorem ofName?_eq_some_iff {name : String} {switch : Switch} :
    ofName? name = some switch ↔ switch.name = name := by
  constructor
  · intro h
    simpa using List.find?_some h
  · rintro rfl
    cases switch <;> rfl

theorem ofLetter?_eq_some_iff {letter : Char} {switch : Switch} :
    ofLetter? letter = some switch ↔ switch.letter? = some letter := by
  constructor
  · intro h
    simpa using List.find?_some h
  · intro h
    cases switch <;> simp only [letter?, Option.some.injEq, reduceCtorEq] at h <;> subst h <;> rfl

/-- How a switch is written out, and the letter for it in a group. -/
def spelling : Switch → String × Option Char
  | .verbose => ("--verbose", some 'v')
  | .dryRun => ("--dry-run", some 'n')
  | .manual => ("--generate-man", none)
  | .markdown => ("--generate-markdown", none)
  | .help => ("--help", some 'h')
  | .version => ("--version", some 'V')

theorem spelling_eq (switch : Switch) : switch.spelling = (switch.label, switch.letter?) := by
  cases switch <;> decide

/-- Whether an argument that is read as options turns the switch on. -/
def isGivenBy (switch : Switch) (argument : String) : Bool :=
  argument = switch.spelling.1 ||
    match argument.toList with
    | '-' :: '-' :: _ => false
    | '-' :: letters => letters.any fun letter ↦ switch.spelling.2 = some letter
    | _ => false

section isGivenBy

variable {argument : String} {letter : Char} {letters : List Char}

theorem eq_spelling_iff {switch : Switch} :
    argument = switch.spelling.1 ↔ argument.toList = '-' :: '-' :: switch.name.toList := by
  rw [spelling_eq, label, ← String.toList_inj, String.toList_append]
  rfl

theorem isGivenBy_of_long (h : argument.toList = '-' :: '-' :: letters) (switch : Switch) :
    switch.isGivenBy argument = decide (String.ofList letters = switch.name) := by
  have hlong : argument = switch.spelling.1 ↔ String.ofList letters = switch.name := by
    rw [eq_spelling_iff, h, List.cons.injEq, List.cons.injEq, ← String.toList_inj,
      String.toList_ofList]
    simp
  simp only [isGivenBy, h, Bool.or_false, hlong]

theorem isGivenBy_of_letters (h : argument.toList = '-' :: letter :: letters)
    (hletter : letter ≠ '-') (switch : Switch) :
    switch.isGivenBy argument =
      (letter :: letters).any fun letter ↦ switch.letter? = some letter := by
  have hlong : ¬ argument = switch.spelling.1 := by
    rw [eq_spelling_iff, h, List.cons.injEq, List.cons.injEq]
    exact fun hcons ↦ hletter hcons.2.1
  rw [isGivenBy, decide_eq_false hlong, Bool.false_or, h, spelling_eq]
  split
  · next hname =>
      rw [List.cons.injEq, List.cons.injEq] at hname
      exact absurd hname.2.1 hletter
  · next hrest =>
      rw [List.cons.injEq] at hrest
      rw [hrest.2]
  · next hnot =>
      exact absurd rfl (hnot _)

theorem isGivenBy_of_plain (h : ∀ letter letters, argument.toList ≠ '-' :: letter :: letters)
    (switch : Switch) : switch.isGivenBy argument = false := by
  have hlong : ¬ argument = switch.spelling.1 := fun heq ↦ h _ _ (eq_spelling_iff.mp heq)
  rw [isGivenBy, decide_eq_false hlong, Bool.false_or]
  split
  · rfl
  · next rest _ hrest =>
      cases rest with
      | nil => rfl
      | cons letter letters => exact absurd hrest (h _ _)
  · rfl

theorem isGivenBy_dashes (switch : Switch) : switch.isGivenBy "--" = false := by
  cases switch <;> rfl

end isGivenBy

/-- Whether the switch is given as an option, which no argument is after `--`. -/
def occursIn (switch : Switch) (arguments : List String) : Bool :=
  (arguments.takeWhile (· ≠ "--")).any switch.isGivenBy

example : dryRun.occursIn ["-vn", "m"] = true ∧ dryRun.occursIn ["--", "-n"] = false := by
  decide

theorem occursIn_append_of_mem {seen : List String} (h : "--" ∈ seen) (switch : Switch)
    (argument : String) : switch.occursIn (seen ++ [argument]) = switch.occursIn seen := by
  have hlength : (seen.takeWhile (· ≠ "--")).length ≠ seen.length := by
    intro heq
    have hself := (List.takeWhile_prefix _).eq_of_length heq
    have hall := List.takeWhile_eq_self_iff.mp hself
    exact absurd (hall "--" h) (by decide)
  rw [occursIn, occursIn, List.takeWhile_append, if_neg hlength]

theorem all_of_not_mem {seen : List String} (h : "--" ∉ seen) :
    ∀ a ∈ seen, decide (a ≠ "--") = true := by
  intro a ha
  rw [decide_eq_true_eq]
  rintro rfl
  exact h ha

theorem occursIn_append_of_not_mem {seen : List String} (h : "--" ∉ seen) (switch : Switch)
    (argument : String) :
    switch.occursIn (seen ++ [argument]) =
      (switch.occursIn seen || switch.isGivenBy argument) := by
  have hall := all_of_not_mem h
  have hseen : seen.takeWhile (· ≠ "--") = seen := List.takeWhile_eq_self_iff.mpr hall
  rw [occursIn, occursIn, List.takeWhile_append_of_pos hall, List.any_append, hseen]
  by_cases hargument : argument = "--"
  · subst hargument
    rw [isGivenBy_dashes]
    simp
  · simp [hargument]

theorem occursIn_of_isGivenBy {seen : List String} (h : "--" ∉ seen) {switch : Switch}
    {argument : String} (hgiven : switch.isGivenBy argument = true) (rest : List String) :
    switch.occursIn (seen ++ argument :: rest) = true := by
  have hne : argument ≠ "--" := by
    rintro rfl
    rw [isGivenBy_dashes] at hgiven
    cases hgiven
  have htake : (argument :: rest).takeWhile (· ≠ "--") =
      argument :: rest.takeWhile (· ≠ "--") := List.takeWhile_cons_of_pos (decide_eq_true hne)
  rw [occursIn, List.takeWhile_append_of_pos (all_of_not_mem h), htake, List.any_append,
    List.any_cons, hgiven, Bool.true_or, Bool.or_true]

/-- The request that is made by turning the switch on, whatever else is asked for. -/
def request? : Switch → Option Request
  | .help => some .help
  | .version => some .version
  | .verbose | .dryRun | .manual | .markdown => none

end Switch

namespace Reading

/-- Just these switches are on. -/
structure Agrees (r : Reading) (on : Switch → Bool) (ended : Bool) : Prop where
  isOn : ∀ switch, r.options.isOn switch = on switch
  onlyDirectories : r.onlyDirectories = ended

section Agrees

variable {r r' : Reading} {on : Switch → Bool} {ended : Bool}

theorem Agrees.congr {on' : Switch → Bool} (h : r.Agrees on ended)
    (hon : ∀ switch, on switch = on' switch) : r.Agrees on' ended :=
  ⟨fun switch ↦ (h.isOn switch).trans (hon switch), h.onlyDirectories⟩

theorem Agrees.settle (h : r.Agrees on ended) (hsettle : r.settle = .ok r') :
    r'.Agrees on ended := by
  rcases settle_cases hsettle with ⟨-, rfl⟩ | ⟨slot, options, -, hfill, rfl⟩
  · exact h
  · refine ⟨fun switch ↦ ?_, h.onlyDirectories⟩
    rw [← h.isOn switch, ← Options.isOn_of_fill hfill]

theorem Agrees.turnOn (h : r.Agrees on ended) {switch : Switch}
    (hturn : r.turnOn switch = .ok (.more r')) :
    r'.Agrees (fun s ↦ on s || s = switch) ended := by
  obtain ⟨mid, options, hsettle, hoptions, rfl⟩ := exists_of_turnOn hturn
  obtain ⟨hon, hended⟩ := h.settle hsettle
  refine ⟨fun s ↦ ?_, hended⟩
  rw [hoptions.isOn, hon]

theorem Agrees.name (h : r.Agrees on ended) {slot : Slot} {value? : Option String}
    (hname : r.name slot value? = .ok (.more r')) : r'.Agrees on ended := by
  obtain ⟨mid, hsettle, hcases⟩ := exists_of_name hname
  obtain ⟨hon, hended⟩ := h.settle hsettle
  rcases hcases with ⟨-, rfl⟩ | ⟨value, -, hjudged⟩
  · exact ⟨hon, hended⟩
  · have hopen : Agrees { mid with open? := some ⟨slot, some value⟩ } on ended := ⟨hon, hended⟩
    exact hopen.settle hjudged

theorem Agrees.readLong (h : r.Agrees on ended) {name : String} {value? : Option String}
    (hlong : r.readLong name value? = .ok (.more r')) :
    r'.Agrees (fun s ↦ on s || ((name, value?) = (s.name, none) : Bool)) ended := by
  rcases readLong_cases hlong with ⟨switch, hswitch, rfl, hturn⟩ | ⟨slot, hnone, -, hslot⟩
  · apply (h.turnOn hturn).congr
    intro s
    rw [← Switch.ofName?_eq_some_iff.mp hswitch]
    cases s <;> cases switch <;> simp [Switch.name]
  · apply (h.name hslot).congr
    intro s
    have hname : name ≠ s.name := by
      rintro rfl
      rw [Switch.ofName?_eq_some_iff.mpr rfl] at hnone
      cases hnone
    simp [hname]

theorem Agrees.readLetters {letters : List Char} (h : r.Agrees on ended)
    (hletters : r.readLetters letters = .ok (.more r')) :
    r'.Agrees (fun s ↦ on s || letters.any fun letter ↦ s.letter? = some letter) ended := by
  induction letters generalizing r on with
  | nil =>
      obtain rfl := Progress.more.inj (Except.ok.inj hletters)
      exact h.congr fun s ↦ by simp
  | cons letter letters ih =>
      obtain ⟨switch, hswitch, ⟨mid, hturn, hlater⟩ | ⟨request, hstop, -⟩⟩ :=
        readLetters_cons_cases hletters
      · apply (ih (h.turnOn hturn) hlater).congr
        intro s
        have hs : s = switch ↔ s.letter? = some letter := by
          rw [← Switch.ofLetter?_eq_some_iff, hswitch, Option.some.injEq, eq_comm]
        simp [hs, Bool.or_assoc]
      · cases hstop

theorem Agrees.readDirectory (h : r.Agrees on ended) {argument : String}
    (hdirectory : r.readDirectory argument = .ok (.more r')) : r'.Agrees on ended := by
  obtain ⟨-, mid, hsettle, rfl⟩ := exists_of_readDirectory hdirectory
  obtain ⟨hon, hended⟩ := h.settle hsettle
  exact ⟨hon, hended⟩

theorem Agrees.readPlain (h : r.Agrees on ended) {argument : String}
    (hplain : r.readPlain argument = .ok (.more r')) : r'.Agrees on ended := by
  rcases readPlain_cases hplain with ⟨slot, -, hfilled⟩ | hdirectory
  · obtain rfl := Progress.more.inj hfilled
    exact ⟨h.isOn, h.onlyDirectories⟩
  · exact h.readDirectory hdirectory

end Agrees

/-- An option without an equals sign is a name, and no switch has one in its name. -/
theorem splitValue_eq_iff {option : List Char} {switch : Switch} :
    splitValue option = (switch.name, none) ↔ String.ofList option = switch.name := by
  constructor
  · intro h
    obtain ⟨hname, hvalue⟩ := Prod.mk.inj h
    have hdrop : option.dropWhile (· ≠ '=') = [] := by
      cases hrest : option.dropWhile (· ≠ '=') with
      | nil => rfl
      | cons c value =>
          rw [hrest] at hvalue
          cases hvalue
    have htake := List.takeWhile_append_dropWhile (p := (· ≠ '=')) (l := option)
    rw [hdrop, List.append_nil] at htake
    rw [← hname, htake]
  · intro h
    have hoption : option = switch.name.toList := by rw [← h, String.toList_ofList]
    subst hoption
    cases switch <;> rfl

/-- What is known is what can be read off the arguments seen so far. -/
def IsAfter (r : Reading) (seen : List String) : Prop :=
  r.Agrees (Switch.occursIn · seen) (decide ("--" ∈ seen))

theorem isAfter_start : start.IsAfter [] where
  isOn switch := by cases switch <;> rfl
  onlyDirectories := rfl

theorem isAfter_append {r : Reading} {seen : List String} {argument : String}
    (hseen : "--" ∉ seen)
    (h : r.Agrees (fun s ↦ s.occursIn seen || s.isGivenBy argument)
      (decide (argument = "--"))) : r.IsAfter (seen ++ [argument]) := by
  have hended : decide ("--" ∈ seen ++ [argument]) = decide (argument = "--") := by
    simp [hseen, eq_comm]
  rw [IsAfter, hended]
  apply h.congr
  exact fun switch ↦ (switch.occursIn_append_of_not_mem hseen argument).symm

theorem IsAfter.read {r r' : Reading} {seen : List String} {argument : String}
    (h : r.IsAfter seen) (hread : r.read argument = .ok (.more r')) :
    r'.IsAfter (seen ++ [argument]) := by
  by_cases hended : "--" ∈ seen
  · rw [read_of_onlyDirectories (h.onlyDirectories.trans (decide_eq_true hended))] at hread
    have hmem : "--" ∈ seen ++ [argument] := List.mem_append_left [argument] hended
    rw [IsAfter, decide_eq_true hmem, ← decide_eq_true hended]
    apply (h.readDirectory hread).congr
    exact fun switch ↦ (switch.occursIn_append_of_mem hended argument).symm
  · have hbefore := h
    rw [IsAfter, decide_eq_false hended] at hbefore
    apply isAfter_append hended
    cases readsAs_read hbefore.onlyDirectories argument with
    | dashes hdashes hmore =>
        obtain rfl := Progress.more.inj (Except.ok.inj (hmore.symm.trans hread))
        subst hdashes
        refine ⟨fun switch ↦ ?_, rfl⟩
        rw [Switch.isGivenBy_dashes, Bool.or_false]
        exact hbefore.isOn switch
    | long option hoption hne hlong =>
        rw [decide_eq_false hne]
        apply (hbefore.readLong (hlong.symm.trans hread)).congr
        intro switch
        rw [Switch.isGivenBy_of_long hoption]
        exact congrArg (switch.occursIn seen || ·) (decide_eq_decide.mpr splitValue_eq_iff)
    | letters letter rest hlist hletter hne hletters =>
        rw [decide_eq_false hne]
        apply (hbefore.readLetters (hletters.symm.trans hread)).congr
        intro switch
        rw [Switch.isGivenBy_of_letters hlist hletter]
    | plain hlist hne hplain =>
        rw [decide_eq_false hne]
        apply (hbefore.readPlain (hplain.symm.trans hread)).congr
        intro switch
        rw [Switch.isGivenBy_of_plain hlist, Bool.or_false]

section enough

variable {r : Reading} {request : Request}

theorem map_more_ne_enough {α : Type} (e : Except UsageError α) (f : α → Reading)
    (request : Request) : e.map (fun a ↦ Progress.more (f a)) ≠ .ok (.enough request) := by
  cases e <;> nofun

theorem request?_of_turnOn {switch : Switch} (h : r.turnOn switch = .ok (.enough request)) :
    switch.request? = some request := by
  unfold turnOn at h
  split at h
  · cases h
  · cases switch <;> simp only [Except.ok.injEq, Progress.enough.injEq] at h <;>
      first
      | exact congrArg some h
      | split at h <;> cases h

theorem name_ne_enough (slot : Slot) (value? : Option String) :
    r.name slot value? ≠ .ok (.enough request) := by
  unfold name
  cases value? with
  | none => exact map_more_ne_enough _ _ _
  | some value =>
      cases r.settle with
      | error e => nofun
      | ok mid => exact map_more_ne_enough _ _ _

theorem readDirectory_ne_enough (argument : String) :
    r.readDirectory argument ≠ .ok (.enough request) := by
  unfold readDirectory
  split
  · nofun
  · exact map_more_ne_enough _ _ _

theorem readPlain_ne_enough (argument : String) :
    r.readPlain argument ≠ .ok (.enough request) := by
  intro h
  rcases readPlain_cases h with ⟨slot, -, hfilled⟩ | hdirectory
  · cases hfilled
  · exact readDirectory_ne_enough argument hdirectory

theorem exists_switch_of_readLong {name : String} {value? : Option String}
    (h : r.readLong name value? = .ok (.enough request)) :
    ∃ switch : Switch, switch.request? = some request ∧ (name, value?) = (switch.name, none) := by
  rcases readLong_cases h with ⟨switch, hswitch, rfl, hturn⟩ | ⟨slot, -, -, hslot⟩
  · exact ⟨switch, request?_of_turnOn hturn, by rw [Switch.ofName?_eq_some_iff.mp hswitch]⟩
  · exact absurd hslot (name_ne_enough _ _)

theorem exists_switch_of_readLetters {letters : List Char}
    (h : r.readLetters letters = .ok (.enough request)) :
    ∃ switch : Switch, switch.request? = some request ∧
      ∃ letter ∈ letters, switch.letter? = some letter := by
  induction letters generalizing r with
  | nil => cases h
  | cons letter letters ih =>
      obtain ⟨switch, hswitch, ⟨mid, -, hlater⟩ | ⟨request, hstop, hturn⟩⟩ :=
        readLetters_cons_cases h
      · obtain ⟨other, hrequest, l, hmem, hl⟩ := ih hlater
        exact ⟨other, hrequest, l, List.mem_cons_of_mem letter hmem, hl⟩
      · obtain rfl := Progress.enough.inj hstop
        exact ⟨switch, request?_of_turnOn hturn, letter, List.mem_cons_self,
          Switch.ofLetter?_eq_some_iff.mp hswitch⟩

/-- Reading stops early only at a switch for help or version, and never after `--`. -/
theorem exists_switch_of_read {argument : String}
    (h : r.read argument = .ok (.enough request)) :
    r.onlyDirectories = false ∧
      ∃ switch : Switch, switch.request? = some request ∧ switch.isGivenBy argument = true := by
  cases hended : r.onlyDirectories with
  | true =>
      rw [read_of_onlyDirectories hended] at h
      exact absurd h (readDirectory_ne_enough argument)
  | false =>
      refine ⟨rfl, ?_⟩
      cases readsAs_read hended argument with
      | dashes _ hmore => cases hmore.symm.trans h
      | long option hoption _ hlong =>
          obtain ⟨switch, hrequest, hname⟩ := exists_switch_of_readLong (hlong.symm.trans h)
          refine ⟨switch, hrequest, ?_⟩
          rw [Switch.isGivenBy_of_long hoption]
          exact decide_eq_true (splitValue_eq_iff.mp hname)
      | letters letter rest hlist hletter _ hletters =>
          obtain ⟨switch, hrequest, l, hmem, hl⟩ :=
            exists_switch_of_readLetters (hletters.symm.trans h)
          refine ⟨switch, hrequest, ?_⟩
          rw [Switch.isGivenBy_of_letters hlist hletter, List.any_eq_true]
          exact ⟨l, hmem, decide_eq_true hl⟩
      | plain _ _ hplain => exact absurd (hplain.symm.trans h) (readPlain_ne_enough argument)

end enough

/-- What is asked for in the end: a text by a switch that is given, or a run in which the switches
are on that are given. -/
theorem IsAfter.readAll {r : Reading} {seen rest : List String} {request : Request}
    (h : r.IsAfter seen) (hread : r.readAll rest = .ok request) :
    (∃ switch : Switch, switch.request? = some request ∧
        switch.occursIn (seen ++ rest) = true) ∨
      ∃ options, request = .run options ∧
        (∀ switch, options.isOn switch = switch.occursIn (seen ++ rest)) ∧
          (options.asksForText = false → options.directory?.isSome = true) := by
  induction rest generalizing r seen with
  | nil =>
      rw [List.append_nil]
      obtain ⟨last, hsettle, rfl, hgiven⟩ := exists_of_readAll_nil hread
      -- the last slot is judged like one that another option follows
      exact Or.inr ⟨last.options, rfl, (h.settle hsettle).isOn, hgiven⟩
  | cons argument rest ih =>
      rcases readAll_cons_cases hread with hstop | ⟨r', hmore, hlater⟩
      · obtain ⟨hended, switch, hrequest, hgiven⟩ := exists_switch_of_read hstop
        rw [h.onlyDirectories, decide_eq_false_iff_not] at hended
        exact Or.inl ⟨switch, hrequest, Switch.occursIn_of_isGivenBy hended hgiven rest⟩
      · rw [List.append_cons]
        exact ih (h.read hmore) hlater

end Reading

section parse

variable {arguments : List String}

theorem Options.isOn_of_parse {options : Options} (h : parse arguments = .ok (.run options))
    (switch : Switch) : options.isOn switch = switch.occursIn arguments := by
  rcases Reading.isAfter_start.readAll h with ⟨other, hrequest, -⟩ | ⟨given, heq, hon, -⟩
  · cases other <;> cases hrequest
  · exact Request.run.inj heq ▸ hon switch

/-- There is a directory in the end, unless a text is asked for. -/
theorem Options.isSome_directory?_of_parse {options : Options}
    (h : parse arguments = .ok (.run options)) (hno : options.asksForText = false) :
    options.directory?.isSome = true := by
  rcases Reading.isAfter_start.readAll h with ⟨other, hrequest, -⟩ | ⟨given, heq, -, hsome⟩
  · cases other <;> cases hrequest
  · obtain rfl := Request.run.inj heq
    exact hsome hno

/-- Help and version are shown only when their switches are given. -/
theorem Switch.occursIn_of_parse {switch : Switch} {request : Request}
    (hrequest : switch.request? = some request) (h : parse arguments = .ok request) :
    switch.occursIn arguments = true := by
  rcases Reading.isAfter_start.readAll h with ⟨other, hother, hoccurs⟩ | ⟨given, rfl, -⟩
  · have heq : other = switch := by
      cases other <;> cases hother <;> cases switch <;> first | rfl | cases hrequest
    exact heq ▸ hoccurs
  · cases switch <;> cases hrequest

end parse

end Command
end ConfigSnapshot

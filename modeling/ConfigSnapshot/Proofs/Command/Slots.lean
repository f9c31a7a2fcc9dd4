import ConfigSnapshot.Proofs.Command.Switches
import Mathlib.Data.List.Basic

/-!
# The values of slots

Which values a list of arguments gives to the slots can be read off it: a value follows an equals
sign, or it is the next argument after an option that waits for one, and what is left over is the
directory. If the arguments are accepted then each slot gets one value at most, and the options of
the run hold it.
-/

namespace ConfigSnapshot
namespace Command

/-- The slot that an argument names, and the value that it brings with it. -/
def namedSlot? (argument : String) : Option (Slot × Option String) :=
  if argument = "--color" then some (.color, none)
  else if argument = "--generate-completion" then some (.completion, none)
  else
    match argument.toList.dropPrefix? "--color=".toList,
      argument.toList.dropPrefix? "--generate-completion=".toList with
    | some value, _ => some (.color, some (String.ofList value))
    | none, some value => some (.completion, some (String.ofList value))
    | none, none => none

/-- Whether an argument looks like an option. A dash alone does not. -/
def looksLikeOption (argument : String) : Bool :=
  match argument.toList with
  | '-' :: _ :: _ => true
  | _ => false

/-- The values that arguments give to slots, in order, where one slot may be waiting for the next
argument. After `--` every argument is a directory. -/
def given (waiting : Option Slot) : List String → List (Slot × String)
  | [] => []
  | argument :: rest =>
      if argument = "--" then rest.map (Slot.directory, ·)
      else
        match namedSlot? argument with
        | some (slot, some value) => (slot, value) :: given none rest
        | some (slot, none) => given (some slot) rest
        | none =>
            if looksLikeOption argument then given none rest
            else (waiting.getD .directory, argument) :: given none rest

example : given none ["--color", "never", "--generate-completion=zsh", "-v", "m"] =
    [(.color, "never"), (.completion, "zsh"), (.directory, "m")] := by
  decide

/-- The values of one slot among those given. -/
def Slot.valuesIn (slot : Slot) (values : List (Slot × String)) : List String :=
  (values.filter fun value ↦ value.1 = slot).map Prod.snd

@[simp] theorem Slot.valuesIn_nil (slot : Slot) : slot.valuesIn [] = [] :=
  rfl

@[simp] theorem Slot.valuesIn_append_singleton (slot other : Slot) (value : String)
    (values : List (Slot × String)) :
    slot.valuesIn (values ++ [(other, value)]) =
      slot.valuesIn values ++ if other = slot then [value] else [] := by
  by_cases h : other = slot <;> simp [valuesIn, h]

/-- The options hold the values, each slot its own, and at most one. -/
structure Options.Holds (options : Options) (values : List (Slot × String)) : Prop where
  color : (Slot.color.valuesIn values).map ColorChoice.ofString? = options.color?.toList.map some
  completion : (Slot.completion.valuesIn values).map Shell.ofString? =
    options.completion?.toList.map some
  directory : Slot.directory.valuesIn values = options.directory?.toList
  ne_empty : "" ∉ Slot.directory.valuesIn values

theorem Options.Holds.fill {options options' : Options} {values : List (Slot × String)}
    {slot : Slot} {value : String} (h : options.Holds values)
    (hfree : slot = .directory → options.directory? = none)
    (hfill : options.fill ⟨slot, some value⟩ = .ok options') :
    options'.Holds (values ++ [(slot, value)]) := by
  obtain ⟨hcolor, hcompletion, hdirectory, hne⟩ := h
  cases slot with
  | color =>
      simp only [Options.fill] at hfill
      split at hfill
      · cases hfill
      · next hnone =>
          split at hfill
          · cases hfill
          · split at hfill
            · next choice hchoice =>
                obtain rfl := Except.ok.inj hfill
                have hempty : options.color? = none := by simpa using hnone
                rw [hempty] at hcolor
                constructor <;> simp_all
            · cases hfill
  | completion =>
      simp only [Options.fill] at hfill
      split at hfill
      · cases hfill
      · next hnone =>
          split at hfill
          · cases hfill
          · split at hfill
            · next shell hshell =>
                obtain rfl := Except.ok.inj hfill
                have hempty : options.completion? = none := by simpa using hnone
                rw [hempty] at hcompletion
                constructor <;> simp_all
            · cases hfill
  | directory =>
      simp only [Options.fill] at hfill
      split at hfill
      · cases hfill
      · next hvalue =>
          obtain rfl := Except.ok.inj hfill
          rw [hfree rfl] at hdirectory
          constructor <;> simp_all

theorem Options.Holds.congr {options options' : Options} {values : List (Slot × String)}
    (h : options.Holds values) (hcolor : options'.color? = options.color?)
    (hcompletion : options'.completion? = options.completion?)
    (hdirectory : options'.directory? = options.directory?) : options'.Holds values :=
  ⟨hcolor ▸ h.color, hcompletion ▸ h.completion, hdirectory ▸ h.directory, h.ne_empty⟩

theorem Slot.ofName?_ne_directory (name : String) : Slot.ofName? name ≠ some .directory := by
  unfold Slot.ofName?
  split
  · decide
  · split <;> decide

namespace Reading

section splitValue

variable {name value : List Char}

theorem forall_ne_equals (h : '=' ∉ name) : ∀ c ∈ name, decide (c ≠ '=') = true := by
  intro c hc
  rw [decide_eq_true_eq]
  rintro rfl
  exact h hc

theorem splitValue_of_not_mem (h : '=' ∉ name) : splitValue name = (String.ofList name, none) := by
  have hall := forall_ne_equals h
  rw [splitValue, List.takeWhile_eq_self_iff.mpr hall, List.dropWhile_eq_nil_iff.mpr hall]

theorem takeWhile_name (h : '=' ∉ name) :
    (name ++ '=' :: value).takeWhile (· ≠ '=') = name := by
  rw [List.takeWhile_append_of_pos (forall_ne_equals h)]
  simp

theorem splitValue_append (h : '=' ∉ name) :
    splitValue (name ++ '=' :: value) = (String.ofList name, some (String.ofList value)) := by
  rw [splitValue, takeWhile_name h, List.dropWhile_append_of_pos (forall_ne_equals h)]
  simp

/-- A name with a value behind its equals sign starts with a flag if it is this flag. -/
theorem dropPrefix?_name {flag : List Char} (hflag : '=' ∉ flag) (hname : '=' ∉ name) :
    (name ++ '=' :: value).dropPrefix? (flag ++ ['=']) =
      if name = flag then some value else none := by
  split
  · next heq =>
      rw [heq, List.append_cons]
      exact List.dropPrefix?_append_of_beq value BEq.rfl
  · next hne =>
      refine Option.eq_none_iff_forall_ne_some.mpr fun rest hrest ↦ hne ?_
      obtain ⟨front, happend, hfront⟩ := List.dropPrefix?_eq_some_iff.mp hrest
      rw [eq_of_beq hfront, ← List.append_cons] at happend
      rw [← takeWhile_name hname, happend, takeWhile_name hflag]

theorem dropPrefix?_of_not_mem {flag : List Char} (h : '=' ∉ name) :
    name.dropPrefix? (flag ++ ['=']) = none := by
  refine Option.eq_none_iff_forall_ne_some.mpr fun rest hrest ↦ h ?_
  obtain ⟨front, rfl, hfront⟩ := List.dropPrefix?_eq_some_iff.mp hrest
  rw [eq_of_beq hfront]
  simp

end splitValue

section namedSlot?

variable {argument : String} {name value : List Char}

theorem ofName?_ofList (name : List Char) : Slot.ofName? (String.ofList name) =
    if name = "color".toList then some .color
    else if name = "generate-completion".toList then some .completion
    else none := by
  have hname (word : String) : String.ofList name = word ↔ name = word.toList := by
    rw [← String.toList_inj, String.toList_ofList]
  simp only [Slot.ofName?, hname]

theorem namedSlot?_of_dashes (h : argument.toList = '-' :: '-' :: name) : namedSlot? argument =
    if name = "color".toList then some (.color, none)
    else if name = "generate-completion".toList then some (.completion, none)
    else
      match ('-' :: '-' :: name).dropPrefix? (('-' :: '-' :: "color".toList) ++ ['=']),
        ('-' :: '-' :: name).dropPrefix? (('-' :: '-' :: "generate-completion".toList) ++ ['='])
      with
      | some value, _ => some (.color, some (String.ofList value))
      | none, some value => some (.completion, some (String.ofList value))
      | none, none => none := by
  have hflag (word flag : String) (hflag : flag.toList = '-' :: '-' :: word.toList) :
      argument = flag ↔ name = word.toList := by
    rw [← String.toList_inj, h, hflag, List.cons.injEq, List.cons.injEq]
    simp
  rw [namedSlot?, h]
  simp only [hflag "color" "--color" rfl, hflag "generate-completion" "--generate-completion" rfl]
  rfl

theorem namedSlot?_of_name (h : argument.toList = '-' :: '-' :: name) (hname : '=' ∉ name) :
    namedSlot? argument = (Slot.ofName? (String.ofList name)).map (·, none) := by
  have hdashes : '=' ∉ '-' :: '-' :: name := by simpa using hname
  rw [namedSlot?_of_dashes h, dropPrefix?_of_not_mem hdashes, dropPrefix?_of_not_mem hdashes,
    ofName?_ofList]
  by_cases hcolor : name = "color".toList
  · rw [if_pos hcolor, if_pos hcolor, Option.map_some]
  · by_cases hcompletion : name = "generate-completion".toList
    · simp only [if_neg hcolor, if_pos hcompletion, Option.map_some]
    · simp only [if_neg hcolor, if_neg hcompletion, Option.map_none]

theorem namedSlot?_of_value (h : argument.toList = '-' :: '-' :: (name ++ '=' :: value))
    (hname : '=' ∉ name) :
    namedSlot? argument =
      (Slot.ofName? (String.ofList name)).map (·, some (String.ofList value)) := by
  have hdashes : '=' ∉ '-' :: '-' :: name := by simpa using hname
  have hbare (word : String) (hword : '=' ∉ word.toList) :
      name ++ '=' :: value ≠ word.toList := by
    intro heq
    rw [← heq] at hword
    exact hword (List.mem_append_right name List.mem_cons_self)
  rw [namedSlot?_of_dashes h, if_neg (hbare "color" (by decide)),
    if_neg (hbare "generate-completion" (by decide)), ← List.cons_append, ← List.cons_append,
    dropPrefix?_name (by decide) hdashes, dropPrefix?_name (by decide) hdashes, ofName?_ofList]
  simp only [List.cons.injEq, true_and]
  by_cases hcolor : name = "color".toList
  · simp only [if_pos hcolor, Option.map_some]
  · by_cases hcompletion : name = "generate-completion".toList
    · simp only [if_neg hcolor, if_pos hcompletion, Option.map_some]
    · simp only [if_neg hcolor, if_neg hcompletion, Option.map_none]

/-- The slot that an option names is the one whose name is read. -/
theorem namedSlot?_of_long {option : List Char} (h : argument.toList = '-' :: '-' :: option) :
    namedSlot? argument =
      (Slot.ofName? (splitValue option).1).map (·, (splitValue option).2) := by
  by_cases hmem : '=' ∈ option
  · obtain ⟨name, value, rfl, hname⟩ := List.eq_append_cons_of_mem hmem
    rw [splitValue_append hname, namedSlot?_of_value h hname]
  · rw [splitValue_of_not_mem hmem, namedSlot?_of_name h hmem]

theorem namedSlot?_of_not_long
    (h : ∀ option, argument.toList ≠ '-' :: '-' :: option) : namedSlot? argument = none := by
  have hflag (flag : String) {option : List Char} (hflag : flag.toList = '-' :: '-' :: option) :
      argument ≠ flag ∧ argument.toList.dropPrefix? flag.toList = none := by
    refine ⟨fun heq ↦ h option (heq ▸ hflag), Option.eq_none_iff_forall_ne_some.mpr ?_⟩
    intro rest hrest
    obtain ⟨front, happend, hfront⟩ := List.dropPrefix?_eq_some_iff.mp hrest
    rw [eq_of_beq hfront, hflag] at happend
    exact h _ happend
  rw [namedSlot?, if_neg (hflag "--color" rfl).1, if_neg (hflag "--generate-completion" rfl).1,
    (hflag "--color=" rfl).2, (hflag "--generate-completion=" rfl).2]

end namedSlot?

/-- The value that is still to be judged. -/
def pending (r : Reading) : List (Slot × String) :=
  match r.open? with
  | some ⟨slot, some value⟩ => [(slot, value)]
  | some ⟨_, none⟩ | none => []

/-- The slot that waits for its value. -/
def waiting (r : Reading) : Option Slot :=
  match r.open? with
  | some ⟨slot, none⟩ => some slot
  | some ⟨_, some _⟩ | none => none

/-- These values have been read, all but the last of them judged, and a slot may be waiting. -/
structure Holds (r : Reading) (values : List (Slot × String)) (waiting : Option Slot)
    (ended : Bool) : Prop where
  judged : ∃ judged, values = judged ++ r.pending ∧ r.options.Holds judged
  waiting_eq : r.waiting = waiting
  waiting_ne : waiting ≠ some .directory
  onlyDirectories : r.onlyDirectories = ended
  opened : ∀ value, r.open? = some ⟨.directory, some value⟩ →
    r.hasDirectory = true ∧ r.options.directory? = none
  free : r.hasDirectory = false → r.options.directory? = none

section Holds

variable {r r' : Reading} {values : List (Slot × String)} {waiting : Option Slot} {ended : Bool}

/-- Judging keeps the values, and no slot may be waiting then. -/
theorem Holds.settle (h : r.Holds values waiting ended) (hsettle : r.settle = .ok r') :
    waiting = none ∧ r'.open? = none ∧ r'.hasDirectory = r.hasDirectory ∧
      r'.Holds values none ended := by
  obtain ⟨⟨judged, rfl, hoptions⟩, rfl, -, hended, hopened, hfree⟩ := h
  rcases settle_cases hsettle with ⟨hnone, rfl⟩ | ⟨⟨slot, value?⟩, options, hopen, hfill, rfl⟩
  · have hwaiting : r'.waiting = none := by rw [Reading.waiting, hnone]
    exact ⟨hwaiting, hnone, rfl, ⟨judged, rfl, hoptions⟩, hwaiting, nofun, hended, hopened, hfree⟩
  · cases value? with
    | none => cases hfill
    | some value =>
        have hwaiting : r.waiting = none := by rw [Reading.waiting, hopen]
        have hpending : r.pending = [(slot, value)] := by rw [Reading.pending, hopen]
        have hjudged := hoptions.fill (by rintro rfl; exact (hopened value hopen).2) hfill
        refine ⟨hwaiting, rfl, rfl, ⟨_, ?_, hjudged⟩, rfl, nofun, hended, nofun, ?_⟩
        · rw [hpending]
          exact (List.append_nil _).symm
        · intro hno
          have hne : slot ≠ .directory := by
            rintro rfl
            exact absurd ((hopened value hopen).1.symm.trans hno) Bool.true_eq_false.mp
          have hdirectory := hjudged.directory
          rw [Slot.valuesIn_append_singleton, if_neg hne, List.append_nil, hoptions.directory,
            hfree hno] at hdirectory
          exact Option.toList_eq_nil_iff.mp hdirectory.symm

/-- Another open slot, after everything before it has been judged. -/
theorem Holds.setOpen (h : r.Holds values none ended) (hopen : r.open? = none) {slot : Slot}
    {value? : Option String} (hslot : slot ≠ .directory) :
    Holds { r with open? := some ⟨slot, value?⟩ } (values ++ (value?.map (slot, ·)).toList)
      (if value?.isSome then none else some slot) ended := by
  obtain ⟨⟨judged, rfl, hoptions⟩, -, -, hended, -, hfree⟩ := h
  have hpending : r.pending = [] := by rw [Reading.pending, hopen]
  have hno (value : String) : (⟨slot, value?⟩ : OpenSlot) ≠ ⟨.directory, some value⟩ :=
    fun heq ↦ hslot (congrArg OpenSlot.slot heq)
  rw [hpending, List.append_nil]
  cases value? with
  | none =>
      exact ⟨⟨judged, rfl, hoptions⟩, rfl, fun heq ↦ hslot (Option.some.inj heq), hended,
        fun value heq ↦ absurd (Option.some.inj heq) (hno value), hfree⟩
  | some value =>
      exact ⟨⟨judged, rfl, hoptions⟩, rfl, nofun, hended,
        fun value heq ↦ absurd (Option.some.inj heq) (hno value), hfree⟩

theorem Holds.turnOn (h : r.Holds values waiting ended) {switch : Switch}
    (hturn : r.turnOn switch = .ok (.more r')) : r'.Holds values none ended := by
  obtain ⟨mid, options, hsettle, hon, rfl⟩ := exists_of_turnOn hturn
  obtain ⟨-, -, -, ⟨judged, hvalues, hoptions⟩, hwaiting, hne, hended, hopened, hfree⟩ :=
    h.settle hsettle
  have hlater := hoptions.congr hon.color hon.completion hon.directory
  refine ⟨⟨judged, hvalues, hlater⟩, hwaiting, hne, hended, fun value hopen ↦ ?_, fun hno ↦ ?_⟩
  · exact ⟨(hopened value hopen).1, hon.directory.trans (hopened value hopen).2⟩
  · exact hon.directory.trans (hfree hno)

theorem Holds.readLetters {letters : List Char} (h : r.Holds values waiting ended)
    (hnil : letters = [] → waiting = none) (hletters : r.readLetters letters = .ok (.more r')) :
    r'.Holds values none ended := by
  induction letters generalizing r waiting with
  | nil =>
      obtain rfl := Progress.more.inj (Except.ok.inj hletters)
      exact hnil rfl ▸ h
  | cons letter letters ih =>
      obtain ⟨switch, -, ⟨mid, hturn, hlater⟩ | ⟨request, hstop, -⟩⟩ :=
        readLetters_cons_cases hletters
      · exact ih (h.turnOn hturn) (fun _ ↦ rfl) hlater
      · cases hstop

theorem Holds.name (h : r.Holds values waiting ended) {slot : Slot} {value? : Option String}
    (hslot : slot ≠ .directory) (hname : r.name slot value? = .ok (.more r')) :
    r'.Holds (values ++ (value?.map (slot, ·)).toList)
      (if value?.isSome then none else some slot) ended := by
  obtain ⟨mid, hsettle, hcases⟩ := exists_of_name hname
  obtain ⟨-, hopen, -, hmid⟩ := h.settle hsettle
  rcases hcases with ⟨rfl, rfl⟩ | ⟨value, rfl, hjudged⟩
  · exact hmid.setOpen hopen hslot
  · have hfilled : Holds { mid with open? := some ⟨slot, some value⟩ }
        (values ++ [(slot, value)]) none ended := hmid.setOpen hopen hslot
    obtain ⟨-, -, -, hlast⟩ := hfilled.settle hjudged
    exact hlast

theorem Holds.readDirectory (h : r.Holds values waiting ended) {argument : String}
    (hdirectory : r.readDirectory argument = .ok (.more r')) :
    waiting = none ∧ r'.Holds (values ++ [(.directory, argument)]) none ended := by
  obtain ⟨hno, mid, hsettle, rfl⟩ := exists_of_readDirectory hdirectory
  obtain ⟨hnone, hopen, hhas, ⟨judged, rfl, hoptions⟩, -, -, hended, -, hfree⟩ := h.settle hsettle
  have hpending : mid.pending = [] := by rw [Reading.pending, hopen]
  have hempty := hfree (hhas.trans hno)
  rw [hpending, List.append_nil]
  exact ⟨hnone, ⟨judged, rfl, hoptions⟩, rfl, nofun, hended, fun _ _ ↦ ⟨rfl, hempty⟩,
    fun _ ↦ hempty⟩

theorem Holds.readPlain (h : r.Holds values waiting ended) {argument : String}
    (hplain : r.readPlain argument = .ok (.more r')) :
    r'.Holds (values ++ [(waiting.getD .directory, argument)]) none ended := by
  rcases readPlain_cases hplain with ⟨slot, hopen, hfilled⟩ | hdirectory
  · obtain rfl := Progress.more.inj hfilled
    obtain ⟨⟨judged, rfl, hoptions⟩, rfl, hne, hended, -, hfree⟩ := h
    have hpending : r.pending = [] := by rw [Reading.pending, hopen]
    have hwaiting : r.waiting = some slot := by rw [Reading.waiting, hopen]
    rw [hwaiting] at hne ⊢
    rw [hpending, List.append_nil, Option.getD_some]
    refine ⟨⟨judged, rfl, hoptions⟩, rfl, nofun, hended, ?_, hfree⟩
    rintro value heq
    cases heq
    exact absurd rfl hne
  · obtain ⟨rfl, hlast⟩ := h.readDirectory hdirectory
    exact hlast

/-- An option that is read gives what its name and its value say. -/
theorem Holds.readLong (h : r.Holds values waiting ended) {name : String}
    {value? : Option String} (hlong : r.readLong name value? = .ok (.more r')) :
    (Slot.ofName? name = none ∧ r'.Holds values none ended) ∨
      ∃ slot, Slot.ofName? name = some slot ∧
        r'.Holds (values ++ (value?.map (slot, ·)).toList)
          (if value?.isSome then none else some slot) ended := by
  rcases readLong_cases hlong with ⟨switch, hswitch, rfl, hturn⟩ | ⟨slot, -, hslot, hname⟩
  · refine Or.inl ⟨?_, h.turnOn hturn⟩
    rw [← Switch.ofName?_eq_some_iff.mp hswitch]
    cases switch <;> decide
  · have hne : slot ≠ .directory := by
      rintro rfl
      exact Slot.ofName?_ne_directory name hslot
    exact Or.inr ⟨slot, hslot, h.name hne hname⟩

/-- The values of the arguments to come. -/
def upcoming (waiting : Option Slot) (ended : Bool) (rest : List String) :
    List (Slot × String) :=
  if ended then rest.map (Slot.directory, ·) else given waiting rest

/-- What is still to come and what has been read make up the same values after an argument. -/
theorem Holds.read (h : r.Holds values waiting ended) {argument : String}
    (hread : r.read argument = .ok (.more r')) :
    ∃ values' waiting' ended', r'.Holds values' waiting' ended' ∧ ∀ rest,
      values' ++ upcoming waiting' ended' rest =
        values ++ upcoming waiting ended (argument :: rest) := by
  cases ended with
  | true =>
      rw [read_of_onlyDirectories h.onlyDirectories] at hread
      obtain ⟨-, hlast⟩ := h.readDirectory hread
      refine ⟨_, _, _, hlast, fun rest ↦ ?_⟩
      rw [List.append_assoc]
      rfl
  | false =>
      cases readsAs_read h.onlyDirectories argument with
      | dashes hdashes hmore =>
          obtain rfl := Progress.more.inj (Except.ok.inj (hmore.symm.trans hread))
          subst hdashes
          exact ⟨values, waiting, true, ⟨h.judged, h.waiting_eq, h.waiting_ne, rfl, h.opened,
            h.free⟩, fun rest ↦ rfl⟩
      | long option hoption hne hlong =>
          have hnamed := namedSlot?_of_long hoption
          have hlooks : looksLikeOption argument = true := by
            rw [looksLikeOption, hoption]
            rfl
          rcases h.readLong (hlong.symm.trans hread) with ⟨hslot, hlast⟩ | ⟨slot, hslot, hlast⟩
          · rw [hslot] at hnamed
            refine ⟨_, _, _, hlast, fun rest ↦ ?_⟩
            simp [upcoming, given, hne, hnamed, hlooks]
          · rw [hslot] at hnamed
            refine ⟨_, _, _, hlast, fun rest ↦ ?_⟩
            cases hvalue : (splitValue option).2 <;>
              simp [upcoming, given, hne, hnamed, hvalue]
      | letters letter letters hlist hletter hne hletters =>
          have hlong : ∀ option, argument.toList ≠ '-' :: '-' :: option := by
            intro option hoption
            rw [hlist, List.cons.injEq, List.cons.injEq] at hoption
            exact hletter hoption.2.1
          have hlooks : looksLikeOption argument = true := by
            rw [looksLikeOption, hlist]
            rfl
          have hlast := h.readLetters (fun hnil ↦ absurd hnil (List.cons_ne_nil _ _))
            (hletters.symm.trans hread)
          refine ⟨_, _, _, hlast, fun rest ↦ ?_⟩
          simp [upcoming, given, hne, namedSlot?_of_not_long hlong, hlooks]
      | plain hlist hne hplain =>
          have hlong (option : List Char) : argument.toList ≠ '-' :: '-' :: option :=
            hlist '-' option
          have hlooks : looksLikeOption argument = false := by
            unfold looksLikeOption
            split
            · next heq => exact absurd heq (hlist _ _)
            · rfl
          refine ⟨_, _, _, h.readPlain (hplain.symm.trans hread), fun rest ↦ ?_⟩
          simp [upcoming, given, hne, namedSlot?_of_not_long hlong, hlooks]

/-- The options of a run hold the values that its arguments give. -/
theorem Holds.readAll {rest : List String} {options : Options}
    (h : r.Holds values waiting ended) (hread : r.readAll rest = .ok (.run options)) :
    options.Holds (values ++ upcoming waiting ended rest) := by
  induction rest generalizing r values waiting ended with
  | nil =>
      obtain ⟨last, hsettle, hrequest, -⟩ := exists_of_readAll_nil hread
      obtain rfl := Request.run.inj hrequest
      obtain ⟨-, hopen, -, hlast⟩ := h.settle hsettle
      obtain ⟨judged, rfl, hoptions⟩ := hlast.judged
      have hpending : last.pending = [] := by rw [Reading.pending, hopen]
      have hnil : upcoming waiting ended [] = [] := by cases ended <;> rfl
      rw [hpending, hnil, List.append_nil, List.append_nil]
      exact hoptions
  | cons argument rest ih =>
      rcases readAll_cons_cases hread with hstop | ⟨r', hmore, hlater⟩
      · obtain ⟨-, switch, hrequest, -⟩ := exists_switch_of_read hstop
        cases switch <;> cases hrequest
      · obtain ⟨values', waiting', ended', hholds, hsame⟩ := h.read hmore
        rw [← hsame rest]
        exact ih hholds hlater

theorem holds_start : start.Holds [] none false where
  judged := ⟨[], rfl, ⟨rfl, rfl, rfl, List.not_mem_nil⟩⟩
  waiting_eq := rfl
  waiting_ne := nofun
  onlyDirectories := rfl
  opened := nofun
  free _ := rfl

end Holds

end Reading

/-- The options of a run as they were given, with a directory unless a text is asked for. -/
structure Options.AreGivenBy (options : Options) (arguments : List String) : Prop where
  isOn : ∀ switch, options.isOn switch = switch.occursIn arguments
  holds : options.Holds (given none arguments)
  isSome_of_not_asksForText : options.asksForText = false → options.directory?.isSome = true

theorem Options.areGivenBy_of_parse {arguments : List String} {options : Options}
    (h : parse arguments = .ok (.run options)) : options.AreGivenBy arguments where
  isOn := Options.isOn_of_parse h
  holds := Reading.holds_start.readAll h
  isSome_of_not_asksForText := Options.isSome_directory?_of_parse h

end Command
end ConfigSnapshot

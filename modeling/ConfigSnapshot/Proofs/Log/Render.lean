import ConfigSnapshot.Log.Line

/-!
# The log as a text

The lines of a module are framed by those of its phases, and stand in the same words for what
its scan has noticed. They are all detail, so a log that is not verbose has none of them. What is
left of it is the last line, if the run was not stopped.
-/

namespace ConfigSnapshot
namespace Log

open Conversion NixModule

section Lines

variable (colored : Bool) (clock : Clock)

/-- A piece as it is shown in colour: behind the code of its look, up to the end of all looks. -/
def inLook (code piece : String) : String :=
  if colored then "\x1b[" ++ code ++ "m" ++ piece ++ "\x1b[0m" else piece

/-- A named value behind a message. -/
def field (name value : String) : String :=
  " " ++ inLook colored "3" name ++ inLook colored "2" "=" ++ value

/-- A line of the log. -/
def lineText (code label span origin message : String) : String :=
  inLook colored "2" clock.stamp ++ " " ++ inLook colored code label ++ " " ++ span ++
    inLook colored "2" origin ++ inLook colored "2" ":" ++ " " ++ message ++ "\n"

/-- What stands on each line that is logged while the module at a path is converted. -/
def spanText (path : Bytes) : String :=
  inLook colored "1" "convert" ++ inLook colored "1" "\x7b" ++ inLook colored "3" "path" ++
    inLook colored "2" "=" ++ path.display ++ inLook colored "1" "\x7d" ++
      inLook colored "2" ":" ++ " "

def spanLine (code label : String) (path : Bytes) (message : String) : String :=
  lineText colored clock code label (spanText colored path) "nixops4_snapshot_convert::rewrite"
    message

/-- The line for something that is noticed in a module. -/
def eventLine (path : Bytes) : Event → String
  | .brace count =>
      let depth := match count with
        | .zero => "BeforeAnyBrace"
        | .one => "SeenOneBrace"
        | .two => "SeenTwoBraces"
        | .more => "PastTopLevel"
      spanLine colored clock "35" "TRACE" path ("top-level brace" ++ field colored "depth" depth)
  | .letEnd => spanLine colored clock "34" "DEBUG" path "end of let block"
  | .config n =>
      spanLine colored clock "34" "DEBUG" path
        ("found top-level config" ++ field colored "line" (toString n))

/-- The lines of one module. -/
def blockText (visit : Visit) : String :=
  spanLine colored clock "34" "DEBUG" visit.path "new" ++
    spanLine colored clock "34" "DEBUG" visit.path "enter" ++
      String.join (visit.events.map (eventLine colored clock visit.path)) ++
        spanLine colored clock "34" "DEBUG" visit.path "exit" ++
          spanLine colored clock "34" "DEBUG" visit.path ("close" ++
            field colored "time.busy" clock.duration ++ field colored "time.idle" clock.duration)

/-- The line at the end of a run that was not stopped. -/
def doneLine (summary : Summary) : String :=
  lineText colored clock "32" " INFO" "" "nixops4_snapshot_convert::driver" ("done" ++
    field colored "converted" (toString summary.converted) ++
      field colored "unchanged" (toString summary.unchanged))

theorem paintIf_eq_inLook (look : Terminal.Look) (piece : String) :
    paintIf colored look piece = inLook colored look.code piece := by
  cases colored <;> rfl

theorem details_eq (record : Record) : record.details colored clock =
    String.join (record.fields.map fun f ↦ field colored f.1 (f.2.render clock)) := by
  simp only [Record.details, paintIf_eq_inLook]
  rfl

theorem line_eq_lineText (record : Record) : record.line colored clock =
    lineText colored clock record.level.look.code record.level.column (record.context colored)
      record.origin (record.message ++ record.details colored clock) := by
  simp only [Record.line, paintIf_eq_inLook, lineText, Terminal.Look.code, String.append_assoc]

/-- A record that belongs to a module stands on a line of its conversion. -/
theorem line_of_path? {record : Record} {path : Bytes} (h : record.path? = some path) :
    record.line colored clock = spanLine colored clock record.level.look.code record.level.column
      path (record.message ++ record.details colored clock) := by
  have horigin : record.origin = "nixops4_snapshot_convert::rewrite" := by
    cases record with
    | done summary => cases h
    | phase | noticed => rfl
  have hcontext : record.context colored = spanText colored path := by
    simp only [Record.context, h, paintIf_eq_inLook, Terminal.Look.code, spanText]
  rw [line_eq_lineText, horigin, hcontext, spanLine]

theorem join_singleton (s : String) : String.join [s] = s := by
  rw [String.join_cons, String.join_nil, String.append_empty]

theorem line_phase (path : Bytes) (phase : Phase) :
    (Record.phase path phase).line colored clock = spanLine colored clock "34" "DEBUG" path
      (match phase with
        | .new => "new"
        | .enter => "enter"
        | .exit => "exit"
        | .close => "close" ++ field colored "time.busy" clock.duration ++
            field colored "time.idle" clock.duration) := by
  have hcolumn : Level.debug.column = "DEBUG" := by decide
  rw [line_of_path? colored clock rfl, details_eq, Record.level, hcolumn]
  congr 1
  cases phase with
  | new | enter | exit => exact String.append_empty
  | close =>
      rw [Record.fields, List.map_cons, List.map_cons, List.map_nil, String.join_cons,
        join_singleton, ← String.append_assoc]
      rfl

theorem line_noticed (path : Bytes) (event : Event) :
    (Record.noticed path event).line colored clock = eventLine colored clock path event := by
  have hdebug : Level.debug.column = "DEBUG" := by decide
  have htrace : Level.trace.column = "TRACE" := by decide
  rw [line_of_path? colored clock rfl, details_eq, Record.level, Record.fields, List.map_map]
  cases event with
  | brace count =>
      rw [Event.level, htrace, Event.fields, List.map_singleton, join_singleton]
      cases count <;> rfl
  | letEnd =>
      rw [Event.level, hdebug, Event.fields, List.map_nil, String.join_nil, String.append_empty]
      rfl
  | config n =>
      rw [Event.level, hdebug, Event.fields, List.map_singleton, join_singleton]
      rfl

theorem line_done (summary : Summary) :
    (Record.done summary).line colored clock = doneLine colored clock summary := by
  have hcolumn : Level.info.column = " INFO" := by decide
  rw [line_eq_lineText, details_eq, Record.fields, List.map_cons, List.map_singleton,
    String.join_cons, join_singleton, Record.level, hcolumn, ← String.append_assoc]
  rfl

/-- Some records, each on its line. -/
def text (records : List Record) : String :=
  String.join (records.map (Record.line colored clock))

theorem text_append (front back : List Record) :
    text colored clock (front ++ back) = text colored clock front ++ text colored clock back := by
  rw [text, List.map_append, String.join_append]
  rfl

theorem text_block (visit : Visit) :
    text colored clock (block visit) = blockText colored clock visit := by
  have hevents : (visit.events.map (Record.noticed visit.path)).map (Record.line colored clock) =
      visit.events.map (eventLine colored clock visit.path) := by
    rw [List.map_map]
    exact List.map_congr_left fun event _ ↦ line_noticed colored clock visit.path event
  rw [text, block, List.map_append, List.map_append, hevents, String.join_append,
    String.join_append]
  simp only [List.map_cons, List.map_nil, line_phase, String.join_cons, String.join_nil,
    String.append_empty, blockText, String.append_assoc]

theorem text_flatMap_block (visits : List Visit) : text colored clock (visits.flatMap block) =
    String.join (visits.map (blockText colored clock)) := by
  induction visits with
  | nil => rfl
  | cons visit visits ih =>
      rw [List.flatMap_cons, text_append, ih, text_block, List.map_cons, String.join_cons]

end Lines

theorem level_ne_info_of_mem_block {visit : Visit} {record : Record}
    (h : record ∈ block visit) : record.level ≠ .info := by
  simp only [block, List.mem_append, List.mem_cons, List.mem_map, List.not_mem_nil, or_false] at h
  rcases h with ((rfl | rfl) | ⟨event, -, rfl⟩) | (rfl | rfl)
  · nofun
  · nofun
  · cases event <;> nofun
  · nofun
  · nofun

theorem filter_flatMap_block (verbose : Bool) (visits : List Visit) :
    (visits.flatMap block).filter (Record.isWanted verbose) =
      if verbose then visits.flatMap block else [] := by
  cases verbose with
  | true => exact List.filter_eq_self.mpr fun record _ ↦ rfl
  | false =>
      apply List.filter_eq_nil_iff.mpr
      intro record hmem
      obtain ⟨visit, -, hrecord⟩ := List.mem_flatMap.mp hmem
      simpa [Record.isWanted] using level_ne_info_of_mem_block hrecord

/-- The blocks of a run, if they are told at all. -/
def blocks (verbose colored : Bool) (clock : Clock) (visits : List Visit) : String :=
  if verbose then String.join (visits.map (blockText colored clock)) else ""

theorem text_filter_flatMap_block (verbose colored : Bool) (clock : Clock)
    (visits : List Visit) :
    text colored clock ((visits.flatMap block).filter (Record.isWanted verbose)) =
      blocks verbose colored clock visits := by
  rw [filter_flatMap_block]
  cases verbose with
  | true => exact text_flatMap_block colored clock visits
  | false => rfl

section Run

variable {run : Run}

theorem render_of_ok {summary : Summary} (h : run.result = .ok summary)
    (verbose colored : Bool) (clock : Clock) :
    render verbose colored clock run =
      blocks verbose colored clock run.visits ++ doneLine colored clock summary := by
  have hrecords : records run = run.visits.flatMap block ++ [.done summary] := by
    rw [records, h]
  have hdone : [Record.done summary].filter (Record.isWanted verbose) = [.done summary] := by
    simp [Record.isWanted, Record.level]
  calc render verbose colored clock run
      = text colored clock ((records run).filter (Record.isWanted verbose)) := rfl
    _ = text colored clock ((run.visits.flatMap block).filter (Record.isWanted verbose)) ++
          text colored clock [.done summary] := by
        rw [hrecords, List.filter_append, hdone, text_append]
    _ = _ := by
        rw [text_filter_flatMap_block, ← line_done]
        exact congrArg (_ ++ ·) (join_singleton _)

theorem render_of_error {failure : Failure} (h : run.result = .error failure)
    (verbose colored : Bool) (clock : Clock) :
    render verbose colored clock run = blocks verbose colored clock run.visits := by
  have hrecords : records run = run.visits.flatMap block := by
    rw [records, h, List.append_nil]
  rw [← text_filter_flatMap_block, render, hrecords]
  rfl

end Run

end Log
end ConfigSnapshot

import WikiTypeset.Json.Value

/-!
# Progress

A conversion goes through a fixed number of stages, and a stage through the steps that it announces. A reporter turns
reports of stages and steps into events with the percentage of the whole that is done. It reckons in numbers of any
kind: doubles for what is shown, rationals for exact laws. Main definitions: `Report`, `Reporter.take`,
`Reporter.eventsOf`.
-/

namespace WikiTypeset.Progress

/-- A report of progress. A message opens a topic, with the file it is about; without a message the topic stays, and
a file that says something takes the place of the last one. -/
inductive Report
  /-- The next stage begins, and will take `length` steps. -/
  | stage (length : Int) (message? : Option String) (file : Json)
  /-- A step begins; with it, `count` steps of the stage count as done. -/
  | step (count : Int) (message? : Option String) (file : Json)
  deriving Repr

/-- What is told about progress: the topic, its file, and the percentage that is done. -/
structure Event (α : Type) where
  message : String
  file : Json
  percent : α
  deriving Repr

/-- What a reporter knows. -/
structure Reporter (α : Type) where
  /-- The share of a stage in the whole. -/
  perStage : α
  /-- The share of a step in its stage. -/
  perStep : α
  /-- The percentage that is done. -/
  percent : α
  /-- How many stages have begun. -/
  stage : Int := 0
  message : String := ""
  file : Json := .null
  deriving Repr

namespace Reporter

variable {α : Type} [Add α] [Mul α] [Div α] [IntCast α]

/-- The share of one part among `n`; none of no parts is `empty`. -/
def share (n : Int) (empty : α) : α := if n = 0 then empty else ((1 : Int) : α) / (n : α)

/-- A reporter for a number of stages. -/
def start (stages : Int) : Reporter α :=
  { perStage := share stages ((1 : Int) : α)
    perStep := ((0 : Int) : α)
    percent := ((0 : Int) : α) }

/-- The topic after a report. -/
def withTopic (r : Reporter α) (message? : Option String) (file : Json) : Reporter α :=
  match message? with
  | some message => { r with message, file }
  | none => if file.isTruthy then { r with file } else r

/-- The event that tells how things are. -/
def event (r : Reporter α) : Event α := ⟨r.message, r.file, r.percent⟩

/-- The reporter after a report, and the event that it gives rise to. A step is told before it counts. -/
def take (r : Reporter α) : Report → Reporter α × Event α
  | .stage length message? file =>
    let r := { r with
      percent := ((100 : Int) : α) * (r.stage : α) * r.perStage
      stage := r.stage + 1
      perStep := share length ((0 : Int) : α) }
    let r := r.withTopic message? file
    (r, r.event)
  | .step count message? file =>
    let r := r.withTopic message? file
    ({ r with percent := r.percent + ((100 : Int) : α) * r.perStage * r.perStep * (count : α) }, r.event)

/-- The events of reports in a row. -/
def eventsFrom (r : Reporter α) : List Report → List (Event α)
  | [] => []
  | report :: reports =>
    let (r, event) := r.take report
    event :: r.eventsFrom reports

/-- The events of a whole that has a number of stages. -/
def eventsOf (stages : Int) (reports : List Report) : List (Event α) := (start stages).eventsFrom reports

end Reporter

/-- The text of an event: the percentage without places, the topic, and its file. -/
def Event.text (e : Event Double) : String :=
  "[" ++ e.percent.fixedText 0 ++ "%] " ++ e.message ++
    if e.file.isTruthy then ": " ++ e.file.display else ""

end WikiTypeset.Progress

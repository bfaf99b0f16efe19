import FinanceIntelligence.AnalysisStore
import FinanceIntelligence.Numbering

/-!
# The event engine

The instructions of the analysis programs, and `AnalysisEventEngine`: the next
event of a job gets the sequence after the last one the transaction sees.

The sequence is not taken from a counter but from the rows, under the lock on the job; that no two
emitters read the same last sequence is `EventLog`.
-/

namespace FinanceIntelligence

/-! ## Programs on analysis rows -/

/-- What the compare tool did when the engine called it: it may commit the
session and it may raise. -/
structure ToolOutcome where
  /-- the comparison was persisted -/
  commits : Bool := true
  /-- the result; `none` if it raised -/
  result : Option ToolResult := some ⟨some 1⟩

/-- An answer from outside the analysis rows. -/
structure Answer where
  /-- `uuid4()` or `gen_random_uuid()` -/
  uuid : Uuid := 0
  /-- the callee raised, with its `code` and `message` if it has them -/
  error : Option (Option String × Option String) := none
  /-- `normalize_request` -/
  normalization : NormalizationOutcome := {}
  /-- the compare tool -/
  tool : ToolOutcome := {}
  /-- the text of the second model turn -/
  contentText : Option String := none
  /-- ids of institutions or periods of the tenant -/
  tenantIds : List Uuid := []
  /-- a payload or a document scope was found valid -/
  valid : Bool := true

/-- The exceptions of the analysis programs. -/
inductive Exc where
  | claimOwnershipLost
  | orchestration (code message : String)
  | eventPayloadTooLarge
  /-- `HTTPException` with the status and the code of its detail -/
  | http (status : ℕ) (code : String)
  /-- a constraint or a trigger of the database -/
  | constraint (s : Stmt)
  /-- `StaleDataError`: an `UPDATE` of a loaded row matched none -/
  | staleData
  /-- an exception of a callee outside the model -/
  | outside (code message : Option String)

/-- What a process notes: the claim it executes. -/
inductive Mark where
  | executing (job token : Uuid) (worker : String)
deriving DecidableEq

/-- A program on analysis rows. -/
abbrev AnalysisProg := Prog Row Stmt Answer Mark AnalysisDb Exc

namespace AnalysisProg

/-- Read the rows as the transaction sees them. -/
def select : AnalysisProg AnalysisDb := Prog.read .ret

/-- A writing statement; a failing constraint is an exception. -/
def execute (s : Stmt) : AnalysisProg Unit :=
  Prog.write s fun ok => if ok then .ret () else .raise (.constraint s)

/-- Commit; a constraint that fails now is an exception. -/
def commit : AnalysisProg Unit :=
  Prog.commit fun failed =>
    match failed with
    | none => .ret ()
    | some s => .raise (.constraint s)

/-- `session.rollback()`. -/
def rollback : AnalysisProg Unit := Prog.rollback (.ret ())

/-- Note what the process does from here on. -/
def note (m : Mark) : AnalysisProg Unit := Prog.note m (.ret ())

/-- A call of something outside the model, which may raise. -/
def call {α : Type} (f : Answer → α) : AnalysisProg α :=
  .ask fun i =>
    match i.error with
    | none => .ret (f i)
    | some (code, message) => .raise (.outside code message)

/-- A fresh identifier. -/
def uuid4 : AnalysisProg Uuid := .ask fun i => .ret i.uuid

/-- The rows of a job meet a condition. -/
def onRows (j : Uuid) (q : JobRows → Bool) (d : AnalysisDb) : Bool := (d.rows j).any q

/-- `SELECT … FROM analysis_jobs WHERE id = j AND q FOR UPDATE`: whether there
is such a row. -/
def lockJob (j : Uuid) (q : JobRows → Bool) : AnalysisProg Bool := .lock (.job j) (onRows j q) .ret

/-- A conditional `UPDATE analysis_jobs … WHERE id = j AND q`: whether it
affected a row. -/
def updateWhere (j : Uuid) (q : JobRows → Bool) (set : AnalysisJob → AnalysisJob) :
    AnalysisProg Bool := do
  if ← lockJob j q then
    execute (.onJob j (.updateJob set))
    return true
  else
    return false

/-- Raise unless the transition is valid. -/
def validateTransition (current new : AnalysisJobStatus) : AnalysisProg Unit :=
  match AnalysisJobStatus.validateTransition current new with
  | none => .ret ()
  | some (code, message) => .raise (.orchestration code message)

end AnalysisProg

/-! ## Events -/

namespace AnalysisEventEngine

open AnalysisProg

/-- `MAX_PAYLOAD_BYTES`. -/
def maxPayloadBytes : ℕ := 32768

/-- The length of a character inside a JSON string; everything but printable
ASCII is escaped. -/
def escapedLength (c : Char) : ℕ :=
  if c == '"' || c == '\\' then 2
  else if c == '\n' || c == '\r' || c == '\t' || c == '\x08' || c == '\x0c' then 2
  else if ' ' ≤ c && c ≤ '~' then 1
  else if c.toNat < 65536 then 6 else 12

/-- The length of a JSON string. -/
def quotedLength (s : String) : ℕ := 2 + (s.toList.map escapedLength).sum

/-- The length of a printed value; a printed time has at most 32 characters. -/
def PayloadValue.length : PayloadValue → ℕ
  | .text s => quotedLength s
  | .texts l => 2 + (l.map quotedLength).sum + 2 * (l.length - 1)
  | .number n => (toString n).length
  | .uuid _ => 38
  | .time _ => 34

/-- `len(json.dumps(payload).encode("utf-8"))`. -/
def payloadBytes (p : Payload) : ℕ :=
  2 + (p.map fun (k, v) => quotedLength k + 2 + PayloadValue.length v).sum + 2 * (p.length - 1)

/-- The last sequence of a job, `0` if it has no events. -/
def lastSequence (r : JobRows) : ℕ := (r.events.map (·.sequence)).foldr max 0

/-- `emit_event`. -/
def emitEvent (j : Uuid) (eventType : EventType) (payload : Payload)
    (attemptId : Option Uuid := none) : AnalysisProg Unit :=
  if maxPayloadBytes < payloadBytes payload then
    .raise .eventPayloadTooLarge
  else do
    let d ← select
    let lastSeq := ((d.rows j).map lastSequence).getD 0
    execute (.onJob j (.insertEvent ⟨lastSeq + 1, eventType, attemptId, payload⟩))

/-- `replay_events`: the events after `lastSequence`, by sequence. -/
def replayEvents (r : JobRows) (lastSequence : ℕ) : List AnalysisEvent :=
  (r.events.filter fun e => lastSequence < e.sequence).insertionSort fun a b =>
    a.sequence ≤ b.sequence

end AnalysisEventEngine

/-! ## Sequences -/

/-- The events carry the sequences `1, 2, …` in order. -/
def Numbered (l : List AnalysisEvent) : Prop := l.map (·.sequence) = List.range' 1 l.length

namespace Numbered

variable {r : JobRows} {l : List AnalysisEvent} {e : AnalysisEvent}

/-- The last sequence is the number of events. -/
theorem lastSequence_eq (h : Numbered r.events) :
    AnalysisEventEngine.lastSequence r = r.events.length :=
  Numbering.Counts.foldr_max h

/-- The next event goes on counting. -/
theorem append (h : Numbered l) (he : e.sequence = l.length + 1) : Numbered (l ++ [e]) :=
  Numbering.Counts.concat h he

/-- The next sequence is not taken. -/
theorem check_insertEvent (h : Numbered r.events) (he : e.sequence = r.events.length + 1) :
    (JobWrite.insertEvent e).check r = true := by
  simp only [JobWrite.check, he, Bool.and_eq_true, decide_eq_true_eq, List.all_eq_true, bne_iff_ne]
  refine ⟨Nat.succ_pos _, fun b hb hbe => ?_⟩
  have hmem : b.sequence ∈ r.events.map (·.sequence) := List.mem_map_of_mem hb
  rw [h, List.mem_range'_1] at hmem
  omega

end Numbered

end FinanceIntelligence

import ForgePlane.Wire
import Mathlib.Logic.Function.Basic

/-!
# The job queue

A retry goes back through `Enqueue`, an insert under the id of the row that is still there, and its
error is not looked at.
-/

namespace ForgePlane.JobQueue

inductive JobStatus where
  | pending
  | running
  | completed
  | failed
  deriving DecidableEq, Repr

structure Job where
  id : String
  status : JobStatus := .pending
  error : String := ""
  maxRetries : Int := 3
  retryCount : Int := 0
  deriving DecidableEq, Repr

abbrev Rows := String → Option Job

/-- The insert does not name `retry_count`, which is zero by default. -/
def enqueue (rows : Rows) (job : Job) : Except Err Unit × Rows :=
  match rows job.id with
  | some _ => (.error "duplicate key value violates unique constraint", rows)
  | none => (.ok (), Function.update rows job.id (some { job with retryCount := 0 }))

def dequeue (rows : Rows) (id : String) : Option (Job × Rows) :=
  match (rows id).filter (·.status = .pending) with
  | none => none
  | some row => some ({ row with status := .running }, Function.update rows id (some { row with status := .running }))

def acknowledge (rows : Rows) (id : String) : Rows :=
  Function.update rows id ((rows id).map fun row => { row with status := .completed })

def fail (rows : Rows) (id : String) (err : Option Err) : Rows :=
  Function.update rows id ((rows id).map fun row => { row with status := .failed, error := err.getD "" })

def process (rows : Rows) (job : Job) (handler : Option (Except Err Unit)) : Rows :=
  match handler with
  | none => fail rows job.id none
  | some (.ok ()) => acknowledge rows job.id
  | some (.error e) =>
    if job.maxRetries ≤ job.retryCount + 1 then fail rows job.id (some e)
    else (enqueue rows { job with retryCount := job.retryCount + 1 }).2

/-- What becomes of a job that workers take as long as it is pending, with the results of its handler, and how
often the handler is run. Statements about other jobs do not touch its row. -/
def life (id : String) : Rows → List (Option (Except Err Unit)) → Rows × Nat
  | rows, [] => (rows, 0)
  | rows, handler :: rest =>
    match dequeue rows id with
    | none => (rows, 0)
    | some (job, rows) =>
      let r := life id (process rows job handler) rest
      (r.1, (if handler.isSome then 1 else 0) + r.2)

def Job.ended (job : Job) : Bool := job.status = .completed || job.status = .failed

theorem life_ended {rows : Rows} {job : Job} (h : rows job.id = some job) (hended : job.ended = true)
    (results : List (Option (Except Err Unit))) : life job.id rows results = (rows, 0) := by
  have hnot : job.status ≠ .pending := by
    intro he
    simp [Job.ended, he] at hended
  cases results with
  | nil => rfl
  | cons => simp [life, dequeue, h, Option.filter_some, hnot]

theorem process_ended {rows : Rows} {job : Job} {handler : Option (Except Err Unit)} (h : rows job.id = some job)
    (hlast : ∀ e, handler = some (.error e) → job.maxRetries ≤ job.retryCount + 1) :
    ∃ job', process rows job handler job.id = some job' ∧ job'.id = job.id ∧ job'.ended = true := by
  match handler, hlast with
  | none, _ => exact ⟨{ job with status := .failed, error := "" }, by simp [process, fail, h], rfl, rfl⟩
  | some (.ok ()), _ => exact ⟨{ job with status := .completed }, by simp [process, acknowledge, h], rfl, rfl⟩
  | some (.error e), hlast =>
    exact ⟨{ job with status := .failed, error := e }, by simp [process, fail, h, hlast e rfl], rfl, rfl⟩

/-- If the handler of a job fails only where no retry is left, the job has ended after its first result and its
handler was run once. -/
theorem job_ends {rows : Rows} {job : Job} (h : rows job.id = some job) (hpending : job.status = .pending)
    (hmax : 0 ≤ job.maxRetries) {handler : Option (Except Err Unit)} {results : List (Option (Except Err Unit))}
    (hlast : ∀ e, handler = some (.error e) → job.maxRetries ≤ job.retryCount + 1) :
    (∃ job', (life job.id rows (handler :: results)).1 job.id = some job' ∧ job'.ended = true) ∧
      ((life job.id rows (handler :: results)).2 : Int) ≤ job.maxRetries + 1 := by
  obtain ⟨job', hprocess, hid, hended⟩ := @process_ended _ { job with status := .running } handler
    (Function.update_self job.id (some { job with status := .running }) rows) hlast
  have hlife := life_ended (hid.symm ▸ hprocess) hended results
  simp only [hid] at hlife
  simp only [life, dequeue, h, hpending, Option.filter_some, decide_true, if_true, hlife]
  exact ⟨⟨job', hprocess, hended⟩, by split <;> omega⟩

theorem job_ends_acknowledged : (∃ job', (life "j" (Function.update (fun _ => none) "j" (some { id := "j" }))
      [some (.ok ())]).1 "j" = some job' ∧ job'.ended = true) ∧
    ((life "j" (Function.update (fun _ => none) "j" (some { id := "j" })) [some (.ok ())]).2 : Int) ≤ 3 + 1 :=
  @job_ends _ { id := "j" } rfl rfl (by decide) _ _ nofun

/-- A handler that fails once leaves its job running for ever: the insert hits the row that is there. -/
theorem failed_job_stuck : (life "j" (Function.update (fun _ => none) "j" (some { id := "j" }))
    [some (.error "timeout"), some (.ok ())]).1 "j" = some { id := "j", status := .running } := by
  decide +kernel

end ForgePlane.JobQueue

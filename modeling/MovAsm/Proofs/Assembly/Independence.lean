import MovAsm.Proofs.Assembly.Agreement
import MovAsm.Settings

/-!
# One Assembler for Many Runs

An assembler carries out one run after another, and between two of them its settings may change. It
keeps the origin and the labels of what it did, also of an assembly that stopped half way. This
module shows that no run can see what is kept: each run comes to what it would come to alone, with
an assembler of the same settings that has done nothing before.

What is kept is that of the last run whose program could be read. A run that refuses its program
keeps what there was; any other run begins anew, so a stopped assembly keeps the labels it came to
and none from before.

## Main results

* `Assembler.assemble_withKept`, `Assembler.answer_carryOut_withKept`: no outcome depends on what
  was kept.
* `Assembler.carryOut_withVerbose`: a log changes nothing but the log.
* `Assembler.isRejected_carryOut_iff`: which runs refuse their program.
* `Assembler.kept_perform`, `Assembler.kept_performAll`: what is kept after one run and after many.
* `runs_independent`: all of this for a sequence of runs.
-/

namespace MovAsm

/-! ### Runs -/

/-- What an assembler can be asked for: to `assemble` instructions or to `compile` a source. -/
inductive Task where
  | assemble (instructions : List (Option Instruction))
  | compile (source : Source)
  deriving DecidableEq, Repr

/-- A task, and the settings under which it is carried out. -/
structure Run where
  settings : Settings
  task : Task
  deriving DecidableEq, Repr

/-- The outcome is that the source was `rejected`. -/
def Outcome.isRejected : Outcome → Bool
  | rejected _ => true
  | image _ | failed _ | unallocatable => false

namespace Assembler

/-- What an assembler keeps of a run: an origin and labels. -/
def kept (assembler : Assembler) : Nat × Option Labels :=
  (assembler.origin, assembler.labels)

/-- The assembler with another origin and other labels. -/
def withKept (assembler : Assembler) (kept : Nat × Option Labels) : Assembler :=
  { assembler with origin := kept.1, labels := kept.2 }

/-- The assembler with other settings. -/
def withSettings (assembler : Assembler) (settings : Settings) : Assembler :=
  { assembler with
    capacity := settings.capacity, width := settings.width, verbose := settings.verbose }

/-- Carries out a task. Answers the outcome and the log. -/
def carryOut (assembler : Assembler) : Task → Assembler × Outcome × List String
  | .assemble instructions => assembler.assemble instructions
  | .compile source => assembler.compile source

/-- Makes the settings of a run and carries out its task. -/
def perform (assembler : Assembler) (run : Run) : Assembler × Outcome × List String :=
  (assembler.withSettings run.settings).carryOut run.task

/-- Performs runs in order. Answers the outcome and the log of each. -/
def performAll : Assembler → List Run → Assembler × List (Outcome × List String)
  | assembler, [] => (assembler, [])
  | assembler, run :: runs =>
    let (next, answer) := assembler.perform run
    let (last, answers) := next.performAll runs
    (last, answer :: answers)

end Assembler

namespace Run

/-- The run by an assembler that has done nothing before. -/
def alone (run : Run) : Assembler × Outcome × List String :=
  run.settings.assembler.carryOut run.task

/-- The run with or without a log. -/
def withVerbose (run : Run) (verbose : Bool) : Run :=
  { run with settings := { run.settings with verbose := verbose } }

/-- Two runs differ at most in `verbose`. -/
def Alike (run other : Run) : Prop :=
  other = run.withVerbose other.settings.verbose

end Run

namespace Assembler

/-! ### What is kept is not seen -/

/-- The answer of `assemble` does not depend on what was `kept`. -/
theorem assemble_withKept (assembler : Assembler) (kept : Nat × Option Labels)
    (instructions : List (Option Instruction)) :
    (assembler.withKept kept).assemble instructions = assembler.assemble instructions := by
  have hcapacity : (assembler.withKept kept).effectiveCapacity = assembler.effectiveCapacity := rfl
  have hwidth : (assembler.withKept kept).effectiveWidth = assembler.effectiveWidth := rfl
  rw [assemble, assemble, hcapacity, hwidth]
  cases Image.blank? assembler.effectiveCapacity assembler.effectiveWidth <;> rfl

/-- The outcome and the log of `compile` do not depend on what was `kept`. -/
theorem answer_compile_withKept (assembler : Assembler) (kept : Nat × Option Labels)
    (source : Source) :
    ((assembler.withKept kept).compile source).2 = (assembler.compile source).2 := by
  rw [compile, compile]
  dsimp only
  split
  · rw [assemble_withKept]
    rfl
  · rfl

/-- The outcome and the log of `carryOut` do not depend on what was `kept`. -/
theorem answer_carryOut_withKept (assembler : Assembler) (kept : Nat × Option Labels)
    (task : Task) :
    ((assembler.withKept kept).carryOut task).2 = (assembler.carryOut task).2 := by
  cases task with
  | assemble instructions => exact congrArg Prod.snd (assemble_withKept assembler kept instructions)
  | compile source => exact answer_compile_withKept assembler kept source

/-! ### A log changes nothing but the log -/

/-- What `assemble` keeps and its outcome do not depend on `verbose`. -/
theorem assemble_withVerbose (assembler : Assembler) (verbose : Bool)
    (instructions : List (Option Instruction)) :
    (({ assembler with verbose := verbose }).assemble instructions).1.kept =
        (assembler.assemble instructions).1.kept ∧
      (({ assembler with verbose := verbose }).assemble instructions).2.1 =
        (assembler.assemble instructions).2.1 := by
  have hcapacity : ({ assembler with verbose := verbose } : Assembler).effectiveCapacity =
    assembler.effectiveCapacity := rfl
  have hwidth : ({ assembler with verbose := verbose } : Assembler).effectiveWidth =
    assembler.effectiveWidth := rfl
  rw [assemble, assemble, hcapacity, hwidth]
  cases Image.blank? assembler.effectiveCapacity assembler.effectiveWidth <;> exact ⟨rfl, rfl⟩

/-- What `carryOut` keeps and its outcome do not depend on `verbose`. -/
theorem carryOut_withVerbose (assembler : Assembler) (verbose : Bool) (task : Task) :
    (({ assembler with verbose := verbose }).carryOut task).1.kept =
        (assembler.carryOut task).1.kept ∧
      (({ assembler with verbose := verbose }).carryOut task).2.1 =
        (assembler.carryOut task).2.1 := by
  cases task with
  | assemble instructions => exact assemble_withVerbose assembler verbose instructions
  | compile source =>
      rw [carryOut, carryOut]
      by_cases hnil : source.complaints = []
      · obtain ⟨hstate, houtcome⟩ := Placement.compile_of_nil assembler hnil
        obtain ⟨hstate', houtcome'⟩ :=
          Placement.compile_of_nil { assembler with verbose := verbose } hnil
        rw [hstate, houtcome, hstate', houtcome']
        exact assemble_withVerbose assembler verbose _
      · rw [Placement.state_compile_of_ne_nil assembler hnil,
          Placement.compile_of_ne_nil assembler hnil,
          Placement.state_compile_of_ne_nil _ hnil, Placement.compile_of_ne_nil _ hnil]
        exact ⟨rfl, rfl⟩

/-! ### What is kept -/

/-- The outcome of `assemble` is never `rejected`. -/
theorem isRejected_assemble (assembler : Assembler) (instructions : List (Option Instruction)) :
    (assembler.assemble instructions).2.1.isRejected = false := by
  cases hblank : Image.blank? assembler.effectiveCapacity assembler.effectiveWidth with
  | none =>
      rw [assemble, hblank]
      rfl
  | some image =>
      rw [(Placement.assemble_of_blank? hblank instructions).1]
      cases (({ image } : Assembly).run instructions).2 <;> rfl

/-- A task is `rejected` exactly if it is to `compile` a source with complaints. -/
theorem isRejected_carryOut_iff (assembler : Assembler) (task : Task) :
    (assembler.carryOut task).2.1.isRejected = true ↔
      ∃ source, task = .compile source ∧ source.complaints ≠ [] := by
  cases task with
  | assemble instructions =>
      rw [carryOut, isRejected_assemble]
      simp
  | compile source =>
      rw [carryOut]
      by_cases hnil : source.complaints = []
      · rw [(Placement.compile_of_nil assembler hnil).2, isRejected_assemble]
        simp [hnil]
      · rw [Placement.compile_of_ne_nil assembler hnil]
        simp [hnil, Outcome.isRejected]

/-- A task that is `rejected` leaves what was `kept`. -/
theorem kept_carryOut_of_isRejected {assembler : Assembler} {task : Task}
    (h : (assembler.carryOut task).2.1.isRejected = true) :
    (assembler.carryOut task).1.kept = assembler.kept := by
  obtain ⟨source, rfl, hne⟩ := (isRejected_carryOut_iff assembler task).mp h
  rw [carryOut, Placement.state_compile_of_ne_nil assembler hne]

/-- What is `kept` after any other task does not depend on what was kept before. -/
theorem kept_carryOut_withKept {assembler : Assembler} {task : Task} (kept : Nat × Option Labels)
    (h : (assembler.carryOut task).2.1.isRejected = false) :
    ((assembler.withKept kept).carryOut task).1.kept = (assembler.carryOut task).1.kept := by
  cases task with
  | assemble instructions => rw [carryOut, carryOut, assemble_withKept]
  | compile source =>
      have hnil : source.complaints = [] := by
        by_contra hne
        rw [(isRejected_carryOut_iff assembler (.compile source)).mpr ⟨source, rfl, hne⟩] at h
        cases h
      rw [carryOut, carryOut, (Placement.compile_of_nil assembler hnil).1,
        (Placement.compile_of_nil (assembler.withKept kept) hnil).1, assemble_withKept]

/-! ### Single runs -/

/-- An assembler `withSettings` is a new one of these settings with what was `kept`. -/
theorem withSettings_eq (assembler : Assembler) (settings : Settings) :
    assembler.withSettings settings = settings.assembler.withKept assembler.kept := rfl

/-- The outcome and the log of a run are those of the run `alone`. -/
theorem answer_perform (assembler : Assembler) (run : Run) :
    (assembler.perform run).2 = run.alone.2 := by
  rw [perform, withSettings_eq, answer_carryOut_withKept, Run.alone]

/-- What is `kept` after a run: what there was if the source was `rejected`, and else what is kept
after the run `alone`. -/
theorem kept_perform (assembler : Assembler) (run : Run) :
    (assembler.perform run).1.kept =
      if run.alone.2.1.isRejected then assembler.kept else run.alone.1.kept := by
  have hanswer := answer_perform assembler run
  cases hrejected : run.alone.2.1.isRejected with
  | true =>
      rw [if_pos rfl]
      rw [← hanswer] at hrejected
      exact kept_carryOut_of_isRejected hrejected
  | false =>
      rw [if_neg Bool.false_ne_true]
      rw [Run.alone] at hrejected ⊢
      rw [perform, withSettings_eq]
      exact kept_carryOut_withKept assembler.kept hrejected

/-! ### Many runs -/

/-- The outcome and the log of each of many runs are those of the run `alone`. Induction on the
runs. -/
theorem answers_performAll (assembler : Assembler) (runs : List Run) :
    (assembler.performAll runs).2 = runs.map fun run => run.alone.2 := by
  induction runs generalizing assembler with
  | nil => rfl
  | cons run runs ih =>
      rw [List.map_cons, ← answer_perform assembler run, ← ih (assembler.perform run).1]
      rfl

/-- What is `kept` after many runs is that of the last one whose source was not `rejected`.
Induction on the runs, from the last. -/
theorem kept_performAll (assembler : Assembler) (runs : List Run) :
    (assembler.performAll runs).1.kept =
      ((runs.filter fun run => !run.alone.2.1.isRejected).getLast?.map fun run =>
        run.alone.1.kept).getD assembler.kept := by
  induction runs generalizing assembler with
  | nil => rfl
  | cons run runs ih =>
      have hlast : (assembler.performAll (run :: runs)).1 =
          ((assembler.perform run).1.performAll runs).1 := rfl
      rw [hlast, ih, kept_perform]
      cases hrejected : run.alone.2.1.isRejected with
      | true => rw [List.filter_cons_of_neg (by simp [hrejected]), if_pos rfl]
      | false =>
          rw [List.filter_cons_of_pos (by simp [hrejected]), List.getLast?_cons,
            if_neg (by simp)]
          cases (runs.filter fun run => !run.alone.2.1.isRejected).getLast? <;> rfl

end Assembler

/-- Runs that are `Alike` have the same outcome `alone` and keep the same. -/
theorem Run.Alike.alone {run other : Run} (h : run.Alike other) :
    other.alone.1.kept = run.alone.1.kept ∧ other.alone.2.1 = run.alone.2.1 := by
  rw [Run.Alike] at h
  rw [h]
  exact run.settings.assembler.carryOut_withVerbose other.settings.verbose run.task

/-- Sequences of runs that are pairwise `Alike` have the same outcomes and keep the same. -/
theorem Assembler.performAll_alike {runs others : List Run}
    (h : List.Forall₂ Run.Alike runs others) {assembler other : Assembler}
    (hkept : other.kept = assembler.kept) :
    (other.performAll others).1.kept = (assembler.performAll runs).1.kept ∧
      (other.performAll others).2.map Prod.fst = (assembler.performAll runs).2.map Prod.fst := by
  induction h generalizing assembler other with
  | nil => exact ⟨hkept, rfl⟩
  | @cons run run' runs others halike _ ih =>
      obtain ⟨halone, houtcome⟩ := halike.alone
      have hnext : (other.perform run').1.kept = (assembler.perform run).1.kept := by
        rw [kept_perform, kept_perform, hkept, halone, houtcome]
      obtain ⟨hlast, houtcomes⟩ := ih hnext
      refine ⟨hlast, ?_⟩
      rw [performAll, performAll, List.map_cons, List.map_cons, answer_perform, answer_perform,
        houtcome]
      exact congrArg _ houtcomes

/-- **Runs on one assembler are independent.** Take any runs on any assembler, each with settings of
its own. Every one of them has the outcome and the log that it has `alone`. One more run keeps what
there was if its source is `rejected`, that is, if it is to compile a source with complaints, and
else the origin and the labels that it keeps alone. So what is `kept` in the end is that of the last
run whose source was not rejected, and if there is none, what was kept before. Whether a log is kept
in any of the runs changes no outcome, and nothing of what is kept. -/
theorem runs_independent (assembler : Assembler) (runs : List Run) :
    let last := (assembler.performAll runs).1
    (assembler.performAll runs).2 = (runs.map fun run => run.alone.2) ∧
    (∀ run, ((last.perform run).2.1.isRejected = true ↔
        ∃ source, run.task = .compile source ∧ source.complaints ≠ []) ∧
      (last.perform run).2 = run.alone.2 ∧
      ((last.perform run).2.1.isRejected = true →
        (last.perform run).1.origin = last.origin ∧ (last.perform run).1.labels = last.labels) ∧
      ((last.perform run).2.1.isRejected = false →
        (last.perform run).1.origin = run.alone.1.origin ∧
        (last.perform run).1.labels = run.alone.1.labels)) ∧
    last.kept =
      ((runs.filter fun run => !run.alone.2.1.isRejected).getLast?.map fun run =>
        run.alone.1.kept).getD assembler.kept ∧
    ∀ others, List.Forall₂ Run.Alike runs others →
      (assembler.performAll others).2.map Prod.fst = (assembler.performAll runs).2.map Prod.fst ∧
      (assembler.performAll others).1.kept = last.kept := by
  intro last
  refine ⟨assembler.answers_performAll runs, fun run => ?_, assembler.kept_performAll runs, ?_⟩
  · have hkept := last.kept_perform run
    rw [← last.answer_perform run] at hkept
    refine ⟨Assembler.isRejected_carryOut_iff _ run.task, last.answer_perform run, ?_, ?_⟩
    · intro hrejected
      rw [if_pos hrejected] at hkept
      exact Prod.mk.inj hkept
    · intro hread
      rw [if_neg (by simp [hread])] at hkept
      exact Prod.mk.inj hkept
  · intro others halike
    obtain ⟨hkept, houtcomes⟩ := Assembler.performAll_alike halike rfl
    exact ⟨houtcomes, hkept⟩

-- An assembly that stops at its second label keeps the first. A source that is refused keeps that,
-- too, and the next run begins without it.
example :
    let settings : Settings := {}
    let defining (name : String) : Option Instruction :=
      some (.unary .start .define ⟨.dot, name⟩)
    (((({} : Assembler).perform
        ⟨settings, .assemble [defining "a", defining "a"]⟩).1.perform
        ⟨settings, .compile ⟨['!'], none⟩⟩).1.labels = some [("a", 0)]) ∧
      (({} : Assembler).performAll
        [⟨settings, .assemble [defining "a", defining "a"]⟩, ⟨settings, .compile ⟨['!'], none⟩⟩,
          ⟨settings, .assemble [defining "b"]⟩]).1.kept = (0, some [("b", 0)]) := by
  decide +kernel

end MovAsm

import MovAsm.Command
import MovAsm.Proofs.Program.Interruption
import MovAsm.Proofs.Storage.Faithful
import MovAsm.Proofs.Storage.Names

/-!
# The Command Is Atomic

The command either does all that it is for or nothing. What it is for is to replace one file by the
dump of the image that the assembler makes of another. It gets there in several steps, any of which
may be refused, and makes a temporary file on the way. Whatever happens, either the output is
replaced and nothing else has changed, or nothing has changed at all; the one exception is that the
removal of the temporary file is refused as well, and then this file is all that has changed.

This holds with any `Storage.Faithful` storage and any `Script.Evaluator`. With
`Storage.Reliable` storage, nothing but the command line, the files and their places decides whether
the output is replaced. It is not enough that there can be a file at the output: there must be one
beside it for a while, and the name of that is longer.

## Main definitions

* `Command.Replaced`, `Command.Abandoned` — what a run may change;
* `Command.Job.Assembles` — what a job makes of the files that it reads;
* `Command.Job.Publishable` — there is a place for its output, and one for its temporary file.

## Main results

* `Command.publish_spec`: what `publish` does.
* `Command.Job.assemble_eq_compile`: a job makes of a source what the assembler makes of it.
* `Command.Job.run_spec`: what a job does.
* `Command.run_atomic`: what the command does.
-/

namespace MovAsm.Command

variable {σ : Type} [Storage (StateM σ)] {fs : FileSystem σ} {state after : σ}

/-! ### Publishing -/

/-- The place to which `output` leads has a file with `content`, and nothing else has changed. -/
def Replaced (fs : FileSystem σ) (output : String) (content : List UInt8)
    (before after : fs.Place → Option fs.Node) : Prop :=
  ∃ place, fs.place? before output = some place ∧
    ChangedAt place (some (fs.file content)) before after

/-- A file was made at the path `temporary`, where there was nothing, and nothing else has changed.
The last thing that was done is that its removal was refused. -/
def Abandoned (fs : FileSystem σ) (temporary : String) (before after : σ) : Prop :=
  (∃ place bytes, fs.place? (fs.view before) temporary = some place ∧
    fs.view before place = none ∧
    ChangedAt place (some (fs.file bytes)) (fs.view before) (fs.view after)) ∧
  ∃ last fault, (Storage.remove temporary : StateM σ _).run last = (.error fault, after)

/-- The file that was made at `place` is gone; or it is there, and the last thing that was done is
that its removal was refused. -/
def Discarded (fs : FileSystem σ) (temporary : String) (place : fs.Place) (before after : σ) :
    Prop :=
  ChangedAt place none (fs.view before) (fs.view after) ∨
    (∃ bytes, ChangedAt place (some (fs.file bytes)) (fs.view before) (fs.view after)) ∧
      ∃ last fault, (Storage.remove temporary : StateM σ _).run last = (.error fault, after)

section

variable {temporary output : String} {content : List UInt8} {place : fs.Place}
  {answer : Except FileError Unit}

/-- The answer of `abandon` is its error, and the file is `Discarded`, whatever was `written`. -/
theorem abandon_spec (hstorage : Storage.Faithful fs) {error : FileError} {written : σ}
    {bytes : List UInt8} (hmade : fs.Made written temporary place)
    (hwritten : ChangedAt place (some (fs.file bytes)) (fs.view state) (fs.view written))
    (h : (abandon temporary error : StateM σ _).run written = (answer, after)) :
    answer = .error error ∧ Discarded fs temporary place state after := by
  rcases hremove : (Storage.remove temporary : StateM σ _).run written with ⟨answered, removed⟩
  rw [abandon, Storage.run_bind_of hremove] at h
  cases h
  refine ⟨rfl, ?_⟩
  cases answered with
  | ok _ => exact .inl (hwritten.trans (hstorage.remove_ok hmade hremove))
  | error fault =>
      rw [← hstorage.remove_error hmade hremove] at hwritten
      exact .inr ⟨⟨bytes, hwritten⟩, written, fault, hremove⟩

/-- A `replace` moves the file that was made to the output, with all its bytes; or it fails, and the
file is `Discarded`. -/
theorem replace_spec (hstorage : Storage.Faithful fs) (hmade : fs.Made state temporary place)
    (h : (replace temporary output content : StateM σ _).run state = (answer, after)) :
    (∃ error, answer = .error error ∧ Discarded fs temporary place state after) ∨
    answer = .ok () ∧ ∃ written goal,
      ChangedAt place (some (fs.file content)) (fs.view state) written ∧
      fs.place? written output = some goal ∧ Moved place goal written (fs.view after) := by
  rcases hwrite : (Storage.write temporary content : StateM σ _).run state with ⟨answered, written⟩
  rw [replace, Storage.run_bind_of hwrite] at h
  cases answered with
  | error fault =>
      obtain ⟨hmade, bytes, hwritten⟩ := hstorage.write_error hmade hwrite
      exact .inl ⟨_, abandon_spec hstorage hmade hwritten h⟩
  | ok _ =>
      obtain ⟨hmade, hwritten⟩ := hstorage.write_ok hmade hwrite
      rcases hclose : (Storage.close temporary : StateM σ _).run written with ⟨answered, closed⟩
      dsimp only at h
      rw [Storage.run_bind_of hclose] at h
      cases answered with
      | error fault =>
          obtain ⟨hmade, bytes, hclosed⟩ := hstorage.close_error hmade hclose
          exact .inl ⟨_, abandon_spec hstorage hmade (hwritten.trans hclosed) h⟩
      | ok _ =>
          obtain ⟨hmade, hclosed⟩ := hstorage.close_ok hmade hclose
          rw [← hclosed] at hwritten
          rcases hrename : (Storage.rename temporary output : StateM σ _).run closed with
            ⟨answered, renamed⟩
          dsimp only at h
          rw [Storage.run_bind_of hrename] at h
          cases answered with
          | error fault =>
              obtain ⟨hmade, hrenamed⟩ := hstorage.rename_error hmade hrename
              rw [← hrenamed] at hwritten
              exact .inl ⟨_, abandon_spec hstorage hmade hwritten h⟩
          | ok _ =>
              obtain ⟨goal, hgoal, hmoved⟩ := hstorage.rename_ok hmade hrename
              cases h
              exact .inr ⟨rfl, fs.view closed, goal, hwritten, hgoal, hmoved⟩

/-- A `publish` is `Replaced`, or it fails and changes nothing, or it fails and its file is
`Abandoned`. -/
theorem publish_spec (hstorage : Storage.Faithful fs) {suffix : String}
    (h : (publish suffix output content : StateM σ _).run state = (answer, after)) :
    (∃ error, answer = .error error ∧ (fs.view after = fs.view state ∨
      Abandoned fs (temporaryName suffix output) state after)) ∨
    answer = .ok () ∧ Replaced fs output content (fs.view state) (fs.view after) := by
  rw [publish] at h
  by_cases hbase : Path.base output = "/"
  · rw [if_pos hbase] at h
    cases h
    exact .inl ⟨_, rfl, .inl rfl⟩
  rw [if_neg hbase] at h
  rcases hcreate : (Storage.create (temporaryName suffix output) : StateM σ _).run state with
    ⟨answered, created⟩
  rw [Storage.run_bind_of hcreate] at h
  cases answered with
  | error fault =>
      have hsame := hstorage.create_error hcreate
      cases fault <;> cases h <;> exact .inl ⟨_, rfl, .inl hsame⟩
  | ok _ =>
      obtain ⟨place, hplace, hnone, hcreated, hmade⟩ := hstorage.create_ok hcreate
      rcases replace_spec hstorage hmade h with
        ⟨error, hanswer, hgone | ⟨⟨bytes, hleft⟩, hrefused⟩⟩ |
        ⟨hanswer, written, goal, hwritten, hgoal, hmoved⟩
      · exact .inl ⟨error, hanswer, .inl ((hcreated.trans hgone).eq_of_eq hnone)⟩
      · exact .inl ⟨error, hanswer,
          .inr ⟨⟨place, bytes, hplace, hnone, hcreated.trans hleft⟩, hrefused⟩⟩
      · -- To make and to write the temporary file did not move the place of the output.
        have hput := hcreated.trans hwritten
        refine .inr ⟨hanswer, goal, ?_, hmoved.here.trans hput.here, fun other hne => ?_⟩
        · rw [← fs.place?_of_changedAt (FileSystem.free_of_none hnone) hput output]
          exact hgoal
        · by_cases hother : other = place
          · subst hother
            rw [hmoved.gone hne, hnone]
          · rw [hmoved.elsewhere other hne hother, hput.elsewhere other hother]

end

/-! ### Assembling -/

/-- The outcome of `assemble` depends on the capacity and the width of the assembler only. -/
theorem outcome_assemble {assembler other : Assembler}
    (hcapacity : other.capacity = assembler.capacity) (hwidth : other.width = assembler.width)
    (instructions : List (Option Instruction)) :
    (other.assemble instructions).2.1 = (assembler.assemble instructions).2.1 := by
  have hblank : Image.blank? other.effectiveCapacity other.effectiveWidth =
      Image.blank? assembler.effectiveCapacity assembler.effectiveWidth := by
    rw [Assembler.effectiveCapacity, Assembler.effectiveCapacity, Assembler.effectiveWidth,
      Assembler.effectiveWidth, hcapacity, hwidth]
  rw [Assembler.assemble, Assembler.assemble, hblank]
  cases Image.blank? assembler.effectiveCapacity assembler.effectiveWidth <;> rfl

/-- The outcome of `compile` depends on the capacity and the width of the assembler only. -/
theorem outcome_compile {assembler other : Assembler}
    (hcapacity : other.capacity = assembler.capacity) (hwidth : other.width = assembler.width)
    (source : Source) : (other.compile source).2.1 = (assembler.compile source).2.1 := by
  by_cases hnil : source.complaints = []
  · rw [(Placement.compile_of_nil other hnil).2, (Placement.compile_of_nil assembler hnil).2]
    exact outcome_assemble hcapacity hwidth _
  · rw [Placement.compile_of_ne_nil other hnil, Placement.compile_of_ne_nil assembler hnil]

namespace Job

/-- What `Job.assemble` says and makes is what `compile` logs and makes. Between the two parts of
the log it shows the instructions, and at the end it remarks on the outcome. -/
theorem assemble_eq_compile (job : Job) (settings : Settings) (source : Source) :
    let compiled := settings.assembler.compile source
    ∃ log listing, log ++ listing = compiled.2.2 ∧
      job.assemble settings source =
        (log.map .line ++ job.shown source.program ++ listing.map .line ++ job.remarks compiled.2.1,
          compiled.2.1.image?.map Image.dump) := by
  intro compiled
  by_cases hnil : source.complaints = []
  · have houtcome : compiled.2.1 = (settings.assembler.assemble (source.program.map some)).2.1 :=
      (Placement.compile_of_nil settings.assembler hnil).2
    rw [Source.complaints] at hnil
    refine ⟨settings.assembler.logIf (Reader.log (Reader.ofSource source).drain.1.lines),
      (settings.assembler.assemble (source.program.map some)).2.2, ?_, ?_⟩
    · change _ = (settings.assembler.compile source).2.2
      rw [Assembler.compile]
      simp only [hnil]
      rfl
    · rw [houtcome, assemble]
      simp only [hnil]
      rfl
  · have houtcome : compiled.2.1 = .rejected source.complaints :=
      Placement.compile_of_ne_nil settings.assembler hnil
    obtain ⟨first, rest, hcomplaints⟩ := List.exists_cons_of_ne_nil hnil
    rw [Source.complaints] at hcomplaints
    refine ⟨settings.assembler.logIf (Reader.log (Reader.ofSource source).drain.1.lines), [], ?_,
      ?_⟩
    · change _ = (settings.assembler.compile source).2.2
      rw [Assembler.compile, List.append_nil]
      simp only [hcomplaints]
    · rw [houtcome, assemble, Source.complaints, hcomplaints, List.map_nil, List.append_nil]
      simp only [hcomplaints]
      rfl

/-- The assembler for `settings`, without a log. -/
abbrev sized (settings : Settings) : Assembler :=
  { capacity := settings.capacity, width := settings.width }

/-- The dump that `Job.assemble` makes of a source is that of the image that `compile` makes. -/
theorem assemble_eq_some_iff (job : Job) (settings : Settings) (source : Source) {dump : String} :
    (job.assemble settings source).2 = some dump ↔
      ∃ image, ((sized settings).compile source).2.1 = .image image ∧ dump = image.dump := by
  obtain ⟨log, listing, -, hassemble⟩ := job.assemble_eq_compile settings source
  have hsame : ((sized settings).compile source).2.1 = (settings.assembler.compile source).2.1 :=
    @outcome_compile settings.assembler (sized settings) rfl rfl source
  rw [hassemble, hsame]
  cases (settings.assembler.compile source).2.1 <;> simp [Outcome.image?, eq_comm]

/-- Of a source that breaks off, `Job.assemble` makes no dump. -/
theorem assemble_of_failure (job : Job) (settings : Settings) {source : Source}
    (hfailure : source.failure ≠ none) : (job.assemble settings source).2 = none := by
  obtain ⟨diagnostic, hfatal, -⟩ := @Reader.drain_stop (Reader.ofSource source) source rfl
    (Lexer.within_ofSource source) hfailure
  have hne : source.complaints ≠ [] := by
    rw [Source.complaints, Reader.complaints, hfatal]
    simp
  cases hdump : (job.assemble settings source).2 with
  | none => rfl
  | some dump =>
      obtain ⟨image, himage, -⟩ := (assemble_eq_some_iff job settings source).mp hdump
      rw [Placement.compile_of_ne_nil (sized settings) hne] at himage
      cases himage

/-! ### Files that a job reads -/

/-- What `readBuild` answers if it finds what it is to read: no build file is asked for, or it is
there to be read. -/
inductive FindsBuild (fs : FileSystem σ) (nodes : fs.Place → Option fs.Node) (job : Job) :
    BuildRead → Prop
  | none (hconfig : job.options.config.isEmpty = true) : FindsBuild fs nodes job none
  | file {bytes : List UInt8} (hconfig : ¬job.options.config.isEmpty = true)
      (hbytes : fs.bytes? nodes job.options.config = some bytes) :
      FindsBuild fs nodes job (some (.ok ⟨bytes, none⟩))

/-- The files that a job reads can be read, its settings are valid, and an assembler of that size
makes `image` of its input. -/
def Assembles (fs : FileSystem σ) (evaluate : Script.Evaluator) (nodes : fs.Place → Option fs.Node)
    (job : Job) (image : Image) : Prop :=
  ∃ build settings bytes, job.FindsBuild fs nodes build ∧
    (job.settings evaluate build).2 = .ok settings ∧ fs.bytes? nodes job.input = some bytes ∧
    ((sized settings).compile (Source.ofBytes bytes none)).2.1 = .image image

variable {evaluate : Script.Evaluator} {job : Job} {build : BuildRead} {settings : Settings}

/-- A `readBuild` changes nothing, and if there are settings in what it answers, it is in the
relation `FindsBuild`. -/
theorem readBuild_spec (hstorage : Storage.Faithful fs)
    (h : (readBuild job : StateM σ _).run state = (build, after)) :
    fs.view after = fs.view state ∧ ∀ settings, (job.settings evaluate build).2 = .ok settings →
      job.FindsBuild fs (fs.view state) build := by
  rw [readBuild] at h
  by_cases hconfig : job.options.config.isEmpty = true
  · rw [if_pos hconfig] at h
    cases h
    exact ⟨rfl, fun _ _ => .none hconfig⟩
  · rw [if_neg hconfig] at h
    rcases hread : (Storage.read job.options.config : StateM σ _).run state with ⟨content, read⟩
    rw [Storage.run_bind_of hread] at h
    cases h
    obtain ⟨hsame, hbytes⟩ := hstorage.read hread
    refine ⟨hsame, fun settings hsettings => ?_⟩
    rcases content with fault | ⟨bytes, _ | fault⟩
    · cases hsettings
    · exact .file hconfig (hbytes bytes rfl)
    · cases hsettings

/-- The steps of `Job.run`. -/
theorem run_eq (evaluate : Script.Evaluator) (suffix : String) (job : Job) (state : σ) :
    (job.run evaluate suffix : StateM σ _).run state =
      let (build, built) := (readBuild job : StateM σ _).run state
      match job.settings evaluate build with
      | (printed, .error remark) => (⟨1, printed ++ [remark]⟩, built)
      | (printed, .ok settings) =>
        match (Storage.read job.input : StateM σ _).run built with
        | (.error fault, read) =>
          (⟨1, printed ++ [.about job.input (.file ⟨"open", [job.input], fault⟩)]⟩, read)
        | (.ok content, read) =>
          match job.assemble settings (job.source content) with
          | (remarks, none) => (⟨1, printed ++ remarks⟩, read)
          | (remarks, some dump) =>
            match (publish suffix job.output dump.toUTF8.data.toList : StateM σ _).run read with
            | (.error error, last) =>
              (⟨1, printed ++ remarks ++ [.about job.output (.file error)]⟩, last)
            | (.ok (), last) => (⟨0, printed ++ remarks⟩, last) := by
  rcases hbuild : (readBuild job : StateM σ _).run state with ⟨build, built⟩
  rw [Job.run, Storage.run_bind_of hbuild]
  dsimp only
  rcases job.settings evaluate build with ⟨printed, remark | settings⟩
  · rfl
  rcases hread : (Storage.read job.input : StateM σ _).run built with ⟨fault | content, read⟩
  · dsimp only
    rw [Storage.run_bind_of hread]
    rfl
  dsimp only
  rw [Storage.run_bind_of hread]
  dsimp only
  rcases job.assemble settings (job.source content) with ⟨remarks, _ | dump⟩
  · rfl
  rcases hpublish : (publish suffix job.output dump.toUTF8.data.toList : StateM σ _).run read with
    ⟨answer, last⟩
  dsimp only
  rw [Storage.run_bind_of hpublish, hpublish]
  cases answer <;> rfl

/-- A job that succeeds `Assembles` an image, and its output is `Replaced` by the dump. Or it fails
and changes nothing, or it fails and its temporary file is `Abandoned`. -/
theorem run_spec (hstorage : Storage.Faithful fs) {suffix : String} {report : Report}
    (h : (job.run evaluate suffix : StateM σ _).run state = (report, after)) :
    (report.exit ≠ 0 ∧ (fs.view after = fs.view state ∨
      Abandoned fs (temporaryName suffix job.output) state after)) ∨
    report.exit = 0 ∧ ∃ image, job.Assembles fs evaluate (fs.view state) image ∧
      Replaced fs job.output image.dump.toUTF8.data.toList (fs.view state) (fs.view after) := by
  rw [run_eq] at h
  rcases hbuild : (readBuild job : StateM σ _).run state with ⟨build, built⟩
  obtain ⟨hbuilt, hfinds⟩ := @readBuild_spec _ _ _ _ _ evaluate _ _ hstorage hbuild
  rw [hbuild] at h
  dsimp only at h
  rcases hsettings : job.settings evaluate build with ⟨printed, remark | settings⟩
  · rw [hsettings] at h
    cases h
    exact .inl ⟨by simp, .inl hbuilt⟩
  rw [hsettings] at h
  have hfound := hfinds settings (congrArg Prod.snd hsettings)
  rcases hinput : (Storage.read job.input : StateM σ _).run built with ⟨fault | content, read⟩
  · rw [hinput] at h
    cases h
    exact .inl ⟨by simp, .inl ((hstorage.read hinput).1.trans hbuilt)⟩
  rw [hinput] at h
  obtain ⟨hread, hbytes⟩ := hstorage.read hinput
  rw [hbuilt] at hread hbytes
  dsimp only at h
  rcases hassemble : job.assemble settings (job.source content) with ⟨remarks, _ | dump⟩
  · rw [hassemble] at h
    cases h
    exact .inl ⟨by simp, .inl hread⟩
  rw [hassemble] at h
  dsimp only at h
  rcases hpublish : (publish suffix job.output dump.toUTF8.data.toList : StateM σ _).run read with
    ⟨answer, last⟩
  rw [hpublish] at h
  rcases publish_spec hstorage hpublish with ⟨error, rfl, hleft⟩ | ⟨rfl, hreplaced⟩
  · cases h
    rw [Abandoned, hread] at hleft
    exact .inl ⟨by simp, hleft⟩
  · cases h
    rw [hread] at hreplaced
    have hsome : (job.assemble settings (job.source content)).2 = some dump := by rw [hassemble]
    obtain ⟨image, himage, rfl⟩ :=
      (assemble_eq_some_iff job settings (job.source content)).mp hsome
    rcases content with ⟨bytes, _ | fault⟩
    · exact .inr ⟨rfl, image, ⟨build, settings, bytes, hfound, congrArg Prod.snd hsettings,
        hbytes bytes rfl, himage⟩, hreplaced⟩
    · have hfailure : (job.source ⟨bytes, some fault⟩).failure ≠ none := by
        simp [source, Source.ofBytes]
      rw [assemble_of_failure job settings hfailure] at hsome
      cases hsome

/-! ### Reliable storage -/

/-- The output of a job has a name, nothing is at the place of its temporary file, and nothing but a
plain file is at the place of its output. -/
structure Publishable (fs : FileSystem σ) (suffix : String) (nodes : fs.Place → Option fs.Node)
    (job : Job) : Prop where
  named : Path.base job.output ≠ "/"
  created : ∃ place, fs.place? nodes (temporaryName suffix job.output) = some place ∧
    nodes place = none
  renamed : ∃ place, fs.place? nodes job.output = some place ∧ fs.Free nodes place

/-- On `Reliable` storage, `publish` succeeds if the job is `Publishable`. -/
theorem Publishable.publish_eq_ok {suffix : String}
    (h : job.Publishable fs suffix (fs.view state)) (hstorage : Storage.Reliable fs)
    (content : List UInt8) :
    ((publish suffix job.output content : StateM σ _).run state).1 = .ok () := by
  obtain ⟨place, hplace, hnone⟩ := h.created
  obtain ⟨goal, hgoal, hfree⟩ := h.renamed
  rcases hcreate : (Storage.create (temporaryName suffix job.output) : StateM σ _).run state with
    ⟨answer, created⟩
  obtain rfl : answer = .ok () := by
    rw [← hstorage.create_eq_ok hplace hnone, hcreate]
  obtain ⟨here, hhere, -, hcreated, hmade⟩ := hstorage.create_ok hcreate
  obtain rfl : here = place := Option.some.inj (hhere.symm.trans hplace)
  rcases hwrite : (Storage.write (temporaryName suffix job.output) content :
    StateM σ _).run created with ⟨answer, written⟩
  obtain rfl : answer = .ok () := by
    rw [← hstorage.write_eq_ok content hmade, hwrite]
  obtain ⟨hmade, hwritten⟩ := hstorage.write_ok hmade hwrite
  rcases hclose : (Storage.close (temporaryName suffix job.output) : StateM σ _).run written with
    ⟨answer, closed⟩
  obtain rfl : answer = .ok () := by
    rw [← hstorage.close_eq_ok hmade, hclose]
  obtain ⟨hmade, hclosed⟩ := hstorage.close_ok hmade hclose
  have hput := hcreated.trans hwritten
  rw [← hclosed] at hput
  have hgoal' : fs.place? (fs.view closed) job.output = some goal := by
    rw [fs.place?_of_changedAt (FileSystem.free_of_none hnone) hput]
    exact hgoal
  rcases hrename : (Storage.rename (temporaryName suffix job.output) job.output :
    StateM σ _).run closed with ⟨answer, renamed⟩
  obtain rfl : answer = .ok () := by
    rw [← hstorage.rename_eq_ok hmade hgoal' (hfree.of_changedAt hput), hrename]
  rw [publish, if_neg h.named, Storage.run_bind_of hcreate]
  dsimp only
  rw [replace, Storage.run_bind_of hwrite]
  dsimp only
  rw [Storage.run_bind_of hclose]
  dsimp only
  rw [Storage.run_bind_of hrename]
  rfl

/-- On `Reliable` storage, `read` reads what there is to be read. -/
theorem run_read (hstorage : Storage.Reliable fs) {path : String} {bytes : List UInt8}
    (h : fs.bytes? (fs.view state) path = some bytes) :
    ∃ after, (Storage.read path : StateM σ _).run state = (.ok ⟨bytes, none⟩, after) ∧
      fs.view after = fs.view state := by
  rcases hread : (Storage.read path : StateM σ _).run state with ⟨answer, after⟩
  obtain rfl : answer = .ok ⟨bytes, none⟩ := by
    rw [← hstorage.read_eq_ok h, hread]
  exact ⟨after, rfl, (hstorage.read hread).1⟩

/-- On `Reliable` storage, `readBuild` finds what there is to be found. -/
theorem FindsBuild.run_readBuild (h : job.FindsBuild fs (fs.view state) build)
    (hstorage : Storage.Reliable fs) :
    ∃ after, (readBuild job : StateM σ _).run state = (build, after) ∧
      fs.view after = fs.view state := by
  rw [readBuild]
  cases h with
  | none hconfig =>
      rw [if_pos hconfig]
      exact ⟨state, rfl, rfl⟩
  | file hconfig hbytes =>
      obtain ⟨after, hread, hsame⟩ := run_read hstorage hbytes
      refine ⟨after, ?_, hsame⟩
      rw [if_neg hconfig, Storage.run_bind_of hread]
      rfl

/-- On `Reliable` storage, a job that `Assembles` and is `Publishable` exits with zero. -/
theorem Assembles.exit_eq_zero {suffix : String} {image : Image}
    (h : job.Assembles fs evaluate (fs.view state) image) (hstorage : Storage.Reliable fs)
    (hplace : job.Publishable fs suffix (fs.view state)) :
    ((job.run evaluate suffix : StateM σ _).run state).1.exit = 0 := by
  obtain ⟨build, settings, bytes, hfinds, hsettings, hinput, himage⟩ := h
  obtain ⟨built, hbuild, hbuilt⟩ := hfinds.run_readBuild hstorage
  rw [← hbuilt] at hinput
  obtain ⟨read, hread, hsame⟩ := run_read hstorage hinput
  rcases hall : job.settings evaluate build with ⟨printed, result⟩
  rw [hall] at hsettings
  obtain rfl : result = .ok settings := hsettings
  have hdump := (assemble_eq_some_iff job settings (Source.ofBytes bytes none)).mpr
    ⟨image, himage, rfl⟩
  rcases hassemble : job.assemble settings (Source.ofBytes bytes none) with ⟨remarks, dump⟩
  rw [hassemble] at hdump
  obtain rfl : dump = some image.dump := hdump
  rw [← hbuilt, ← hsame] at hplace
  have hpublish := hplace.publish_eq_ok hstorage image.dump.toUTF8.data.toList
  rcases hrun : (publish suffix job.output image.dump.toUTF8.data.toList :
    StateM σ _).run read with ⟨answer, last⟩
  rw [hrun] at hpublish
  obtain rfl : answer = .ok () := hpublish
  have hsource : job.source ⟨bytes, none⟩ = Source.ofBytes bytes none := rfl
  simp only [run_eq, hbuild, hall, hread, hsource, hassemble, hrun]

/-- Arguments of which `ofArguments` makes no job are no failure only if they ask for help. -/
theorem exit_of_ofArguments_error {arguments : List String} {report : Report}
    (h : Job.ofArguments arguments = .error report) :
    report.exit = 0 ↔ Options.parse {} arguments = .error .help := by
  rw [Job.ofArguments] at h
  cases hparse : Options.parse {} arguments with
  | error fault =>
      rw [hparse] at h
      cases h
      by_cases hhelp : fault = .help <;> simp [Report.ofFlagFault, hhelp]
  | ok parsed =>
      rw [hparse] at h
      obtain ⟨options, operands⟩ := parsed
      rcases operands with _ | ⟨input, _ | ⟨output, _ | ⟨extra, rest⟩⟩⟩ <;> cases h <;> simp

end Job

/-- The `temporaryName` of an output in the working directory is in the working directory. -/
theorem temporaryName_of_not_mem {output : String} (suffix : String) (hne : output ≠ "")
    (hslash : '/' ∉ output.toList) :
    temporaryName suffix output = "./" ++ ("." ++ output ++ "." ++ suffix) := by
  rw [temporaryName, Path.directory_of_not_mem hslash, Path.base_of_not_mem hne hslash, Path.join,
    if_neg (by decide +kernel)]
  simp only [← String.append_assoc]
  rfl

/-- On a file tree, `publish` fails if the name of the output leaves no room for what makes the name
of the temporary file different. -/
theorem publish_of_long {suffix output : String} (tree : FileTree) (content : List UInt8)
    (hne : output ≠ "") (hslash : '/' ∉ output.toList) (hsuffix : '/' ∉ suffix.toList)
    (hlong : Location.longestName < output.utf8ByteSize + suffix.utf8ByteSize + 2) :
    (publish suffix output content : StateM FileTree _).run tree =
      (.error ⟨"open", [temporaryName suffix output], .nameTooLong⟩, tree) := by
  have hresolve : tree.resolve (temporaryName suffix output) = .error .nameTooLong := by
    rw [temporaryName_of_not_mem suffix hne hslash]
    refine tree.resolve_here_of_long ?_ ?_
    · simp [hslash, hsuffix]
    · simp only [String.utf8ByteSize_append]
      change _ < 1 + _ + 1 + _
      omega
  have hcreate : (Storage.create (temporaryName suffix output) : StateM FileTree _).run tree =
      (.error .nameTooLong, tree) := by
    change (FileTree.update (·.create (temporaryName suffix output))).run tree = _
    rw [FileTree.run_update, FileTree.create, hresolve]
  have hbase : Path.base output ≠ "/" := by
    rw [Path.base_of_not_mem hne hslash]
    rintro rfl
    simp at hslash
  rw [publish, if_neg hbase, Storage.run_bind_of hcreate]
  rfl

/-! ### A small tree -/

/-- The evaluator that finds nothing in any script. -/
def silent : Script.Evaluator := fun _ _ _ => ⟨[], .ok []⟩

/-- A program `a` that stops at once, a file `b` with one byte in place of its dump, and a build
file `c`. -/
def smallTree : FileTree :=
  .ofList [] [("a", "HLT".toUTF8.data.toList), ("b", [0]),
    ("c", "verbose = True".toUTF8.data.toList)]

/-- The entries of `smallTree`. -/
theorem entries_smallTree : smallTree.entries =
    [(["a"], .file "HLT".toUTF8.data.toList), (["b"], .file [0]),
      (["c"], .file "verbose = True".toUTF8.data.toList)] := by
  decide +kernel

/-- The program in `smallTree` can be read. -/
theorem read_smallTree : (Storage.read "a" : StateM FileTree _).run smallTree =
    (.ok ⟨"HLT".toUTF8.data.toList, none⟩, smallTree) := by
  change (smallTree.read "a", smallTree) = _
  exact congrArg (·, smallTree) (by decide +kernel)

/-- Where the temporary file of `b` would be, there is nothing in `smallTree`. -/
theorem temporary_smallTree :
    (Location.resolve smallTree.node? (temporaryName "1" "b")).toOption = some [".b.1"] ∧
      smallTree.node? [".b.1"] = none := by
  decide +kernel

/-- Where `b` leads in `smallTree`, there is a plain file. -/
theorem output_smallTree : (Location.resolve smallTree.node? "b").toOption = some ["b"] ∧
    (FileTree.system (id : FileTree → FileTree)).Free smallTree.node? ["b"] := by
  have hfile : smallTree.node? ["b"] = some (.file [0]) := by decide +kernel
  refine ⟨by decide +kernel, fun node hnode => ?_⟩
  exact ⟨[0], Option.some.inj (hnode.symm.trans hfile)⟩

/-- There are places in `smallTree` for `b` and for its temporary file. -/
theorem publishable_smallTree (options : Options) :
    (⟨options, "a", "b"⟩ : Job).Publishable (FileTree.system id) "1" smallTree.node? where
  named := by
    change Path.base "b" ≠ "/"
    decide +kernel
  created := by
    dsimp only [FileTree.system]
    exact ⟨[".b.1"], temporary_smallTree⟩
  renamed := by
    dsimp only [FileTree.system]
    exact ⟨["b"], output_smallTree⟩

/-- The program in `smallTree` makes an image, but the run fails if `publish` does. -/
theorem run_smallTree_of_error {output : String} {error : FileError}
    (h : ∀ content : List UInt8, (publish "1" output content : StateM FileTree _).run smallTree =
      (.error error, smallTree)) :
    (run silent "1" ["-capacity", "1", "a", output] : StateM FileTree Report).run smallTree =
      (⟨1, [.about output (.file error)]⟩, smallTree) := by
  have hjob : Job.ofArguments ["-capacity", "1", "a", output] =
    .ok ⟨{ capacity := 1 }, "a", output⟩ := rfl
  have hbuild : (readBuild ⟨{ capacity := 1 }, "a", output⟩ : StateM FileTree _).run smallTree =
    (none, smallTree) := rfl
  have hsettings : (⟨{ capacity := 1 }, "a", output⟩ : Job).settings silent none =
    ([], .ok { capacity := 1 }) := rfl
  -- No step before the last depends on the output.
  have hassemble : (⟨{ capacity := 1 }, "a", output⟩ : Job).assemble { capacity := 1 }
      (Source.ofBytes "HLT".toUTF8.data.toList none) =
      ([], some ({ words := [0x20], width := 2 } : Image).dump) := by
    change (⟨{ capacity := 1 }, "a", ""⟩ : Job).assemble _ _ = _
    decide +kernel
  rw [run, hjob]
  simp only [Job.run_eq, hbuild, hsettings, read_smallTree, Job.source, Option.map_none, hassemble,
    h, List.nil_append]

end MovAsm.Command

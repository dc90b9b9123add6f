import MovAsm.Proofs.Assembly.Independence
import MovAsm.Proofs.Command.Arguments
import MovAsm.Proofs.Command.Atomicity
import MovAsm.Proofs.Image.Size

/-!
# Flags and the Build File

A setting has a usual value. A build file may replace it, and a flag may replace what the build file
says. A flag counts unless its value is `0` or `false`: `Options.override` cannot tell such a value
from that of a flag that is not there. So no flag turns a log off, and `-capacity 0` and `-width 0`
are not refused but passed over.

Nothing is assumed of the `Script.Evaluator` that runs build files, nor of the storage: what a run
does is told from what they answer.

## Main definitions

* `BuildFile.Declares` — the settings that the globals of a script stand for;
* `Given` — what flags say about settings;
* `Given.overlay`, `Given.counted` — settings replaced by what is given, and what of it counts;
* `Command.Declared` — what the script in the build file prints, and its globals.

## Main results

* `BuildFile.settingsOf_eq_ok_iff`: `settingsOf` answers exactly the settings that are declared.
* `Given.override_eq`: options replace what counts.
* `Command.Declared.settings_eq`: the settings of a job.
* `Command.settings_resolved`: the settings of a run, and what the run does with them.
-/

namespace MovAsm

/-! ### Build files -/

namespace BuildFile

variable {globals : List (String × Script.Global)} {name : String}

/-- The global `name` is `wrap value`; or there is none, and `value` is the `usual` one. -/
def Entry {β : Type} (globals : List (String × Script.Global)) (name : String)
    (wrap : β → Script.Global) (usual value : β) : Prop :=
  globals.lookup name = some (wrap value) ∨ globals.lookup name = none ∧ value = usual

/-- The `settings` that the globals of a script stand for. They are valid, and what is not declared
is 256 words of two digits without a log. -/
structure Declares (globals : List (String × Script.Global)) (settings : Settings) : Prop where
  capacity : Entry globals "capacity" Script.Global.int 256 settings.capacity
  width : Entry globals "width" Script.Global.int 2 settings.width
  verbose : Entry globals "verbose" Script.Global.bool false settings.verbose
  valid : settings.validate = .ok ()

/-- If `number?` answers `found`, then this or else the `usual` number is the `Entry` for `name`. -/
theorem entry_of_number? {found : Option Int} (h : number? globals name = .ok found) (usual : Int) :
    Entry globals name Script.Global.int usual (found.getD usual) := by
  rw [number?] at h
  cases hglobal : globals.lookup name with
  | none =>
      rw [hglobal] at h
      cases h
      exact .inr ⟨hglobal, rfl⟩
  | some value =>
      rw [hglobal] at h
      cases value with
      | int n =>
          by_cases hword : (-0x8000000000000000 ≤ n && n < 0x8000000000000000) = true
          · simp only [if_pos hword] at h
            cases h
            exact .inl hglobal
          · simp only [if_neg hword] at h
            cases h
      | bool _ | other => cases h

/-- If the `Entry` for `name` is a number that fits into a machine word, `number?` finds it. -/
theorem exists_number? {usual value : Int} (h : Entry globals name Script.Global.int usual value)
    (hlow : -0x8000000000000000 ≤ value) (hhigh : value < 0x8000000000000000) :
    ∃ found, number? globals name = .ok found ∧ found.getD usual = value := by
  rcases h with hsome | ⟨hnone, rfl⟩
  · refine ⟨some value, ?_, rfl⟩
    simp [number?, hsome, hlow, hhigh]
  · exact ⟨none, by simp [number?, hnone], rfl⟩

/-- If `flag?` answers `found`, then this or else the `usual` value is the `Entry` for `name`. -/
theorem entry_of_flag? {found : Option Bool} (h : flag? globals name = .ok found) (usual : Bool) :
    Entry globals name Script.Global.bool usual (found.getD usual) := by
  rw [flag?] at h
  cases hglobal : globals.lookup name with
  | none =>
      rw [hglobal] at h
      cases h
      exact .inr ⟨hglobal, rfl⟩
  | some value =>
      rw [hglobal] at h
      cases value with
      | bool b =>
          cases h
          exact .inl hglobal
      | int _ | other => cases h

/-- If the `Entry` for `name` is a truth value, `flag?` finds it. -/
theorem exists_flag? {usual value : Bool} (h : Entry globals name Script.Global.bool usual value) :
    ∃ found, flag? globals name = .ok found ∧ found.getD usual = value := by
  rcases h with hsome | ⟨hnone, rfl⟩
  · exact ⟨some value, by simp [flag?, hsome], rfl⟩
  · exact ⟨none, by simp [flag?, hnone], rfl⟩

/-- The answer of `settingsOf` is exactly the settings that the globals declare. -/
theorem settingsOf_eq_ok_iff {settings : Settings} :
    settingsOf globals = .ok settings ↔ Declares globals settings := by
  constructor
  · intro h
    obtain ⟨capacity, hcapacity, h⟩ := Check.bind_eq_ok_iff.mp h
    obtain ⟨width, hwidth, h⟩ := Check.bind_eq_ok_iff.mp h
    obtain ⟨verbose, hverbose, h⟩ := Check.bind_eq_ok_iff.mp h
    dsimp only at h
    cases hvalid : Settings.validate ⟨capacity.getD Assembler.defaultCapacity,
        width.getD Assembler.defaultWidth, verbose.getD false⟩ with
    | ok _ =>
        rw [hvalid] at h
        cases h
        exact ⟨entry_of_number? hcapacity _, entry_of_number? hwidth _, entry_of_flag? hverbose _,
          hvalid⟩
    | error fault =>
        rw [hvalid] at h
        cases h
  · intro h
    obtain ⟨⟨hlow, hhigh⟩, hdigits⟩ := Settings.validate_eq_ok_iff.mp h.valid
    obtain ⟨capacity, hcapacity, hsize⟩ := exists_number? h.capacity (by omega) (by omega)
    obtain ⟨width, hwidth, hshown⟩ := exists_number? h.width (by omega) (by omega)
    obtain ⟨verbose, hverbose, hlog⟩ := exists_flag? h.verbose
    have hsettings : settings = ⟨capacity.getD 256, width.getD 2, verbose.getD false⟩ := by
      rw [hsize, hshown, hlog]
    have hvalid := h.valid
    rw [hsettings] at hvalid ⊢
    simp only [settingsOf, hcapacity, hwidth, hverbose, Check.ok_bind, Assembler.defaultCapacity,
      Assembler.defaultWidth, hvalid, Check.pure_eq_ok]

end BuildFile

/-! ### What flags give -/

/-- What flags say about `Settings`: `none` where they say nothing. -/
structure Given where
  capacity : Option Int
  width : Option Int
  verbose : Option Bool
  deriving DecidableEq, Repr

namespace Given

/-- What is given by `choices`, of which the last for each flag counts. -/
def ofChoices (choices : List Choice) : Given :=
  { capacity := Choice.last? Choice.capacity? choices
    width := Choice.last? Choice.width? choices
    verbose := Choice.last? Choice.verbose? choices }

/-- The `settings` with all that is `given` in place of what they were. -/
def overlay (given : Given) (settings : Settings) : Settings :=
  { capacity := given.capacity.getD settings.capacity
    width := given.width.getD settings.width
    verbose := given.verbose.getD settings.verbose }

/-- What counts of what is `given`: a capacity or a width of `0` does not, and neither does a
`verbose` that is `false`. -/
def counted (given : Given) : Given :=
  { capacity := given.capacity.filter (· != 0)
    width := given.width.filter (· != 0)
    verbose := given.verbose.filter id }

/-- What `counted` does to a number, in the terms of `Options.override`: it is `usual` if it is `0`
or not given. -/
theorem getD_filter_number (value : Option Int) (usual : Int) :
    (value.filter (· != 0)).getD usual = if value.getD 0 = 0 then usual else value.getD 0 := by
  cases value with
  | none => rfl
  | some n => by_cases hzero : n = 0 <;> simp [Option.filter, hzero]

/-- What `counted` does to `verbose`, in the terms of `Options.override`: it is on if it is given as
on, or if it is `usual`. -/
theorem getD_filter_switch (value : Option Bool) (usual : Bool) :
    (value.filter id).getD usual = (value.getD false || usual) := by
  rcases value with _ | _ | _ <;> simp [Option.filter]

/-- An `Options.override` replaces what is `counted` of the choices that the options were made
of. -/
theorem override_eq (choices : List Choice) (base : Settings) :
    (choices.foldl Choice.apply {}).override base = (ofChoices choices).counted.overlay base := by
  have hcapacity : (choices.foldl Choice.apply {}).capacity = _ :=
    @Choice.field_foldl _ Options.capacity Choice.capacity?
      (fun options choice => by cases choice <;> rfl) choices {}
  have hwidth : (choices.foldl Choice.apply {}).width = _ :=
    @Choice.field_foldl _ Options.width Choice.width?
      (fun options choice => by cases choice <;> rfl) choices {}
  have hverbose : (choices.foldl Choice.apply {}).verbose = _ :=
    @Choice.field_foldl _ Options.verbose Choice.verbose?
      (fun options choice => by cases choice <;> rfl) choices {}
  rw [Options.override, hcapacity, hwidth, hverbose, overlay, counted, ofChoices,
    getD_filter_number, getD_filter_number, getD_filter_switch]

/-- Over valid settings, all that is `given` counts, unless it is a `0` or turns `verbose` off. -/
theorem counted_overlay_eq_iff {given : Given} {base : Settings} (hbase : base.validate = .ok ()) :
    given.counted.overlay base = given.overlay base ↔
      given.capacity ≠ some 0 ∧ given.width ≠ some 0 ∧
        (given.verbose = some false → base.verbose = false) := by
  obtain ⟨⟨hlow, -⟩, hdigits⟩ := Settings.validate_eq_ok_iff.mp hbase
  have hnumber {value : Option Int} {usual : Int} (hne : usual ≠ 0) :
      (value.filter (· != 0)).getD usual = value.getD usual ↔ value ≠ some 0 := by
    rw [getD_filter_number]
    cases value with
    | none => simp
    | some n => by_cases hzero : n = 0 <;> simp [hzero, hne]
  have hswitch {value : Option Bool} {usual : Bool} :
      (value.filter id).getD usual = value.getD usual ↔ (value = some false → usual = false) := by
    rw [getD_filter_switch]
    rcases value with _ | _ | _ <;> simp
  rw [overlay, overlay, counted, Settings.mk.injEq, hnumber (by omega), hnumber (by omega), hswitch]

end Given

namespace Command

/-- An image that was compiled with valid `settings` has their capacity and width. -/
theorem image_shape_of_compile {settings : Settings} {source : Source} {image : Image}
    (hvalid : settings.validate = .ok ())
    (himage : (settings.assembler.compile source).2.1 = .image image) :
    image.words.length = settings.capacity.toNat ∧ image.width = settings.width := by
  by_cases hnil : source.complaints = []
  · rw [(Placement.compile_of_nil settings.assembler hnil).2] at himage
    exact (Settings.image_shape hvalid himage).2
  · rw [Placement.compile_of_ne_nil settings.assembler hnil] at himage
    cases himage

section

variable {σ : Type} [Storage (StateM σ)] {evaluate : Script.Evaluator} {choices : List Choice}
  {state built : σ} {printed : List String} {globals : List (String × Script.Global)}
  {job : Job} {base settings : Settings} {suffix : String}

/-! ### Settings before flags -/

/-- What comes of the build file that is chosen last: the state `built` of the storage after it was
read, the lines that its script has `printed`, and the `globals` of the script. A build file with
the empty path is none, and without a build file nothing is printed and there are no globals. -/
inductive Declared (evaluate : Script.Evaluator) (choices : List Choice) (state : σ) :
    σ → List String → List (String × Script.Global) → Prop
  | none (hfile : (Choice.last? Choice.config? choices).getD "" = "") :
      Declared evaluate choices state state [] []
  | file {built : σ} {file : String} {bytes : List UInt8} {printed : List String}
      {globals : List (String × Script.Global)}
      (hfile : Choice.last? Choice.config? choices = some file) (hne : file ≠ "")
      (hread : (Storage.read file : StateM σ _).run state = (.ok ⟨bytes, Option.none⟩, built))
      (hrun : evaluate BuildFile.predeclared file bytes = ⟨printed, .ok globals⟩) :
      Declared evaluate choices state built printed globals

/-- A job finds the globals that are `Declared`. What is given and counts replaces the settings that
they stand for, and the result must be valid. -/
theorem Declared.settings_eq (h : Declared evaluate choices state built printed globals)
    (hbase : BuildFile.settingsOf globals = .ok base)
    (hoptions : job.options = choices.foldl Choice.apply {}) :
    ∃ build, (readBuild job : StateM σ _).run state = (build, built) ∧
      job.settings evaluate build = (printed.map .line, job.resolve (.ok base)) := by
  have hconfig : job.options.config = (Choice.last? Choice.config? choices).getD "" := by
    rw [hoptions]
    exact @Choice.field_foldl _ Options.config Choice.config?
      (fun options choice => by cases choice <;> rfl) choices {}
  rw [readBuild]
  cases h with
  | none hfile =>
      rw [hfile] at hconfig
      have husual : BuildFile.settingsOf [] = .ok {} := rfl
      rw [husual] at hbase
      cases hbase
      refine ⟨Option.none, ?_, rfl⟩
      rw [if_pos (by rw [hconfig]; rfl)]
      rfl
  | file hfile hne hread hrun =>
      rw [hfile, Option.getD_some] at hconfig
      rw [hconfig, if_neg (by simpa using hne), Storage.run_bind_of hread]
      refine ⟨_, rfl, ?_⟩
      simp only [Job.settings, Job.buildSettings, BuildFile.load, hconfig, hrun, hbase]

/-! ### Running with settings -/

section

variable {build : BuildRead} {remarks said : List Remark} {content : FileContent} {read last : σ}
  {dump : String}

/-- The `run` of a job for which there are no settings. -/
theorem Job.run_of_refused {remark : Remark}
    (hbuild : (readBuild job : StateM σ _).run state = (build, built))
    (hsettings : job.settings evaluate build = (remarks, .error remark)) :
    (job.run evaluate suffix : StateM σ _).run state = (⟨1, remarks ++ [remark]⟩, built) := by
  simp only [Job.run_eq, hbuild, hsettings]

/-- The `run` of a job whose input cannot be read. -/
theorem Job.run_of_unreadable {fault : FileFault}
    (hbuild : (readBuild job : StateM σ _).run state = (build, built))
    (hsettings : job.settings evaluate build = (remarks, .ok settings))
    (hread : (Storage.read job.input : StateM σ _).run built = (.error fault, read)) :
    (job.run evaluate suffix : StateM σ _).run state =
      (⟨1, remarks ++ [.about job.input (.file ⟨"open", [job.input], fault⟩)]⟩, read) := by
  simp only [Job.run_eq, hbuild, hsettings, hread]

/-- The `run` of a job that makes no dump of its input. -/
theorem Job.run_of_none
    (hbuild : (readBuild job : StateM σ _).run state = (build, built))
    (hsettings : job.settings evaluate build = (remarks, .ok settings))
    (hread : (Storage.read job.input : StateM σ _).run built = (.ok content, read))
    (hassemble : job.assemble settings (job.source content) = (said, none)) :
    (job.run evaluate suffix : StateM σ _).run state = (⟨1, remarks ++ said⟩, read) := by
  simp only [Job.run_eq, hbuild, hsettings, hread, hassemble]

/-- The `run` of a job that makes a dump of its input: it is published. -/
theorem Job.run_of_some {answer : Except FileError Unit}
    (hbuild : (readBuild job : StateM σ _).run state = (build, built))
    (hsettings : job.settings evaluate build = (remarks, .ok settings))
    (hread : (Storage.read job.input : StateM σ _).run built = (.ok content, read))
    (hassemble : job.assemble settings (job.source content) = (said, some dump))
    (hpublish : (publish suffix job.output dump.toUTF8.data.toList : StateM σ _).run read =
      (answer, last)) :
    (answer = .ok () →
      (job.run evaluate suffix : StateM σ _).run state = (⟨0, remarks ++ said⟩, last)) ∧
    (∀ error, answer = .error error →
      (job.run evaluate suffix : StateM σ _).run state =
        (⟨1, remarks ++ said ++ [.about job.output (.file error)]⟩, last)) := by
  refine ⟨?_, ?_⟩
  · rintro rfl
    simp only [Job.run_eq, hbuild, hsettings, hread, hassemble, hpublish]
  · rintro error rfl
    simp only [Job.run_eq, hbuild, hsettings, hread, hassemble, hpublish]

end

/-- To `run` the command is to run the job of its `CommandLine`. -/
theorem run_of_commandLine {arguments : List String} {input output : String}
    (h : CommandLine choices arguments [input, output]) (evaluate : Script.Evaluator)
    (suffix : String) (state : σ) :
    (run evaluate suffix arguments : StateM σ Report).run state =
      (Job.run evaluate suffix ⟨choices.foldl Choice.apply {}, input, output⟩ :
        StateM σ Report).run state := by
  have hjob : Job.ofArguments arguments = .ok ⟨choices.foldl Choice.apply {}, input, output⟩ :=
    Job.ofArguments_eq_ok_iff.mpr ⟨choices, h, rfl⟩
  rw [run, hjob]

/-- **The settings of a run, and what it does with them.** Let a command line be well formed, and
let its build file be one that loads with the given evaluator, if it has one. The build file
declares the settings `base`: the values that its script gives them, and the usual ones where it
gives none.

* What the last flags give takes their place, as far as it counts; and all of it counts unless it is
  a capacity or a width of `0`, or a `-v=false` where the build file asks for a log.
* If the settings that come of this are not valid, the run says so and does nothing else.
* If they are valid and the input cannot be read, the run says so.
* If it can, an assembler with exactly this capacity, width and log is set to it. The report is made
  of its log. If it makes an image, that has the capacity and the width, its dump is published, and
  the run succeeds if that does. If it does not make an image, the run fails. -/
theorem settings_resolved (evaluate : Script.Evaluator) (suffix : String) (state : σ)
    {arguments : List String} {input output : String}
    (hline : CommandLine choices arguments [input, output])
    (hglobals : Declared evaluate choices state built printed globals)
    (hloads : BuildFile.settingsOf globals = .ok base) :
    let job : Job := ⟨choices.foldl Choice.apply {}, input, output⟩
    let given := Given.ofChoices choices
    let settings := given.counted.overlay base
    let result := (run evaluate suffix arguments : StateM σ Report).run state
    BuildFile.Declares globals base ∧
    (settings = given.overlay base ↔
      given.capacity ≠ some 0 ∧ given.width ≠ some 0 ∧
        (given.verbose = some false → base.verbose = false)) ∧
    (∀ fault, settings.validate = .error fault →
      result = (⟨1, printed.map .line ++ [.about name (.setting fault)]⟩, built)) ∧
    (settings.validate = .ok () → ∀ answer read,
      (Storage.read input : StateM σ _).run built = (answer, read) →
      (∀ fault, answer = .error fault →
        result = (⟨1, printed.map .line ++
          [.about input (.file ⟨"open", [input], fault⟩)]⟩, read)) ∧
      ∀ content, answer = .ok content →
        let source := job.source content
        let compiled := ({ capacity := settings.capacity, width := settings.width,
                           verbose := settings.verbose } : Assembler).compile source
        ∃ log listing, log ++ listing = compiled.2.2 ∧
          let remarks := printed.map .line ++
            (log.map .line ++ job.shown source.program ++ listing.map .line)
          (∀ image, compiled.2.1 = .image image →
            image.words.length = settings.capacity.toNat ∧ image.width = settings.width ∧
            ∀ published last,
              (publish suffix output image.dump.toUTF8.data.toList : StateM σ _).run read =
                (published, last) →
              (published = .ok () → result = (⟨0, remarks⟩, last)) ∧
              (∀ error, published = .error error →
                result = (⟨1, remarks ++ [.about output (.file error)]⟩, last))) ∧
          ((∀ image, compiled.2.1 ≠ .image image) →
            result = (⟨1, remarks ++ job.remarks compiled.2.1⟩, read))) := by
  intro job given settings result
  have hresult : result = (job.run evaluate suffix : StateM σ Report).run state :=
    run_of_commandLine hline evaluate suffix state
  rw [hresult]
  obtain ⟨build, hbuild, hresolved⟩ :=
    @Declared.settings_eq _ _ _ _ _ _ _ _ job _ hglobals hloads rfl
  have hoverride : job.options.override base = settings := Given.override_eq choices base
  have hdeclares := BuildFile.settingsOf_eq_ok_iff.mp hloads
  refine ⟨hdeclares, Given.counted_overlay_eq_iff hdeclares.valid, ?_, ?_⟩
  · intro fault hfault
    refine Job.run_of_refused hbuild ?_
    rw [hresolved, Job.resolve]
    simp only [hoverride, hfault]
  · intro hvalid answer read hread
    have hsettings : job.settings evaluate build = (printed.map .line, .ok settings) := by
      rw [hresolved, Job.resolve]
      simp only [hoverride, hvalid]
    refine ⟨?_, ?_⟩
    · rintro fault rfl
      exact Job.run_of_unreadable hbuild hsettings hread
    · rintro content rfl source compiled
      obtain ⟨log, listing, hlog, hassemble⟩ := job.assemble_eq_compile settings source
      refine ⟨log, listing, hlog, ?_, ?_⟩
      · intro image himage
        obtain ⟨hlength, hwidth⟩ := image_shape_of_compile hvalid himage
        refine ⟨hlength, hwidth, fun published last hpublish => ?_⟩
        rw [show (settings.assembler.compile source).2.1 = .image image from himage, Job.remarks,
          List.append_nil] at hassemble
        exact Job.run_of_some hbuild hsettings hread hassemble hpublish
      · intro himage
        have hnone : compiled.2.1.image? = none := by
          cases houtcome : compiled.2.1 with
          | image image => exact absurd houtcome (himage image)
          | rejected diagnostics | failed error | unallocatable => rfl
        rw [show (settings.assembler.compile source).2.1.image? = none from hnone] at hassemble
        rw [List.append_assoc]
        exact Job.run_of_none hbuild hsettings hread hassemble

end

/-! ### A build file that asks for a log -/

/-- The evaluator for which every script asks for a log. -/
def asking : Script.Evaluator := fun _ _ _ => ⟨[], .ok [("verbose", .bool true)]⟩

/-- The build file in `smallTree` asks for a log. -/
theorem declared_smallTree {choices : List Choice}
    (h : Choice.last? Choice.config? choices = some "c") :
    Declared asking choices smallTree smallTree [] [("verbose", .bool true)] := by
  have hread : (Storage.read "c" : StateM FileTree _).run smallTree =
      (.ok ⟨"verbose = True".toUTF8.data.toList, none⟩, smallTree) := by
    change (smallTree.read "c", smallTree) = _
    exact congrArg (·, smallTree) (by decide +kernel)
  exact .file h (by decide) hread rfl

/-- There is a place for any `content` at `b` in `smallTree`. -/
theorem publish_smallTree (content : List UInt8) :
    ∃ last, (publish "1" "b" content : StateM FileTree _).run smallTree = (.ok (), last) ∧
      last.read "b" = .ok ⟨content, none⟩ := by
  have hok := (publishable_smallTree {}).publish_eq_ok FileTree.reliable content
  rcases hpublish : (publish "1" "b" content : StateM FileTree _).run smallTree with ⟨answer, last⟩
  obtain rfl : answer = .ok () := (congrArg Prod.fst hpublish).symm.trans hok
  refine ⟨last, rfl, FileTree.read_eq_ok_iff.mpr ?_⟩
  rcases publish_spec FileTree.reliable.toFaithful hpublish with ⟨error, herror, -⟩ | ⟨-, hreplaced⟩
  · cases herror
  · obtain ⟨place, hplace, hput⟩ := hreplaced
    have hat := hplace
    dsimp only [FileTree.system, id] at hat
    obtain rfl : ["b"] = place := Option.some.inj (output_smallTree.1.symm.trans hat)
    exact (FileTree.system id).bytes?_of_changedAt output_smallTree.2 hplace hput

/-- A build file asks for a log, and the size of the image is chosen twice. The log is kept, and the
image has the size that was chosen last. -/
theorem settings_resolved_last_choice :
    let arguments := ["-config", "c", "-capacity=0x2", "--capacity", "1", "a", "b"]
    let choices : List Choice := [.config "c", .capacity 2, .capacity 1]
    let image : Image := { words := [0x20], width := 2 }
    let result := (run asking "1" arguments : StateM FileTree Report).run smallTree
    CommandLine choices arguments ["a", "b"] ∧
      Declared asking choices smallTree smallTree [] [("verbose", .bool true)] ∧
      BuildFile.settingsOf [("verbose", .bool true)] = .ok { verbose := true } ∧
      result.1 = ⟨0, [.line "parse: 1: [Operation(\"HLT\")@1:1]", .line "asm: 00: HLT ; HLT"]⟩ ∧
      result.2.read "b" = .ok ⟨image.dump.toUTF8.data.toList, none⟩ := by
  intro arguments choices image result
  have hline : CommandLine choices arguments ["a", "b"] :=
    .choice (@Choice.Spells.apart (.config "c") "-" "c" (.inl rfl) rfl rfl)
      (.choice (@Choice.Spells.joined (.capacity 2) "-" "0x2" (.inl rfl) rfl)
        (.choice (@Choice.Spells.apart (.capacity 1) "--" "1" (.inr rfl) rfl rfl)
          (.operands ["b"] (.inr (by decide)))))
  have hglobals := @declared_smallTree choices rfl
  obtain ⟨-, -, -, hrun⟩ := settings_resolved asking "1" smallTree hline hglobals rfl
  obtain ⟨-, hrun⟩ := hrun rfl _ smallTree read_smallTree
  obtain ⟨log, listing, hlog, hmade, -⟩ := hrun _ rfl
  obtain ⟨-, -, hdone⟩ := hmade image (by decide +kernel)
  obtain ⟨last, hpublish, hread⟩ := publish_smallTree image.dump.toUTF8.data.toList
  have hlines : [] ++ (log.map .line ++ [] ++ listing.map .line) =
      [Remark.line "parse: 1: [Operation(\"HLT\")@1:1]", .line "asm: 00: HLT ; HLT"] := by
    rw [List.nil_append, List.append_nil, ← List.map_append, hlog]
    decide +kernel
  have hresult : result = _ := (hdone _ last hpublish).1 rfl
  rw [hresult]
  exact ⟨hline, hglobals, rfl, congrArg (Report.mk 0) hlines, hread⟩

/-- A log that the build file asks for is kept although a flag turns it off, and an image without
words and words without digits are not refused but passed over. -/
theorem zero_and_off_passed_over :
    let arguments := ["-config", "c", "-v=false", "-capacity", "0", "-width=0", "a", "b"]
    let choices : List Choice := [.config "c", .verbose false, .capacity 0, .width 0]
    let wanted := (Given.ofChoices choices).overlay { verbose := true }
    let result := (run asking "1" arguments : StateM FileTree Report).run smallTree
    CommandLine choices arguments ["a", "b"] ∧
      Declared asking choices smallTree smallTree [] [("verbose", .bool true)] ∧
      BuildFile.settingsOf [("verbose", .bool true)] = .ok { verbose := true } ∧
      wanted = ⟨0, 0, false⟩ ∧ wanted.validate = .error (.outOfRange "capacity" 0) ∧
      result.1 =
        ⟨0, [.line "parse: 1: [Operation(\"HLT\")@1:1]", .line "asm: 00: HLT ; HLT"]⟩ := by
  intro arguments choices wanted result
  have hline : CommandLine choices arguments ["a", "b"] :=
    .choice (@Choice.Spells.apart (.config "c") "-" "c" (.inl rfl) rfl rfl)
      (.choice (@Choice.Spells.joined (.verbose false) "-" "false" (.inl rfl) rfl)
        (.choice (@Choice.Spells.apart (.capacity 0) "-" "0" (.inl rfl) rfl rfl)
          (.choice (@Choice.Spells.joined (.width 0) "-" "0" (.inl rfl) rfl)
            (.operands ["b"] (.inr (by decide))))))
  have hglobals := @declared_smallTree choices rfl
  let job : Job := ⟨choices.foldl Choice.apply {}, "a", "b"⟩
  obtain ⟨build, hbuild, hsettings⟩ :=
    @Declared.settings_eq _ _ _ _ _ _ _ _ job { verbose := true } hglobals rfl rfl
  let image : Image := ⟨0x20 :: List.replicate 255 0, 2, []⟩
  obtain ⟨log, listing, hlog, hassemble⟩ := job.assemble_eq_compile { verbose := true }
    (Source.ofBytes "HLT".toUTF8.data.toList none)
  rw [show (({ verbose := true } : Settings).assembler.compile
    (Source.ofBytes "HLT".toUTF8.data.toList none)).2.1 = .image image by decide +kernel]
    at hassemble
  obtain ⟨last, hpublish, -⟩ := publish_smallTree image.dump.toUTF8.data.toList
  have hlines : [] ++ (log.map .line ++ [] ++ listing.map .line ++ []) =
      [Remark.line "parse: 1: [Operation(\"HLT\")@1:1]", .line "asm: 00: HLT ; HLT"] := by
    rw [List.nil_append, List.append_nil, List.append_nil, ← List.map_append, hlog]
    decide +kernel
  have hresult : result = _ := (run_of_commandLine hline asking "1" smallTree).trans
    ((Job.run_of_some hbuild hsettings read_smallTree hassemble hpublish).1 rfl)
  rw [hresult]
  exact ⟨hline, hglobals, rfl, rfl, rfl, congrArg (Report.mk 0) hlines⟩

end Command

end MovAsm

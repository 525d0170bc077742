import LeafSurvey.Proofs.ActingAlike
import LeafSurvey.Proofs.Repetition
import LeafSurvey.Proofs.SetOrders

/-!
# Histories of commands

Commands follow one another on one store, and each finds what those before it
have left. When they are about one directory, with their outputs outside it and
apart from all settings files, none of them disturbs another: each sees what it
would have seen at first.

* `evolves_answer`: one command, which puts files at the locations of its
  outputs at most;
* `isTree_filesAfter`: any number of calls, which leave a tree a tree;
* `Apart.seesSame_of_evolves`: what a command sees of a store that has evolved
  so;
* `Apart.seesSame`: any number of commands before it;
* `commands_do_not_disturb`: what this means for runs, for the other commands,
  and for a run that is repeated.
-/

namespace LeafSurvey

/-! ## Jobs that put files -/

namespace Job

variable {α β : Type} {writable : Location → Prop}

/-- However it ends, a job makes directories and puts files at the given
locations at most. -/
def Puts (writable : Location → Prop) (job : Job α) : Prop :=
  ∀ m : Machine, m.store.Evolves writable (job.runOn m).2.store

namespace Puts

theorem of_keepsFiles {job : Job α} (h : job.KeepsFiles) :
    job.Puts writable := by
  intro m
  rw [(h m).store]
  exact .refl

theorem changing {f : Store → Except Failure α × Store}
    (h : ∀ s : Store, s.Evolves writable (f s).2) :
    (changing f).Puts writable := by
  intro m
  rw [runOn_changing]
  exact h m.store

theorem bind {x : Job α} {f : α → Job β} (hx : x.Puts writable)
    (hf : ∀ a, (f a).Puts writable) :
    (x >>= f).Puts writable := by
  intro m
  have hfirst := hx m
  rw [runOn_bind]
  rcases hrun : x.runOn m with ⟨failure | a, mid⟩ <;> rw [hrun] at hfirst
  · exact hfirst
  · exact hfirst.trans (hf a mid)

end Puts

end Job

/-- Both outputs are put in their places at most. -/
theorem Survey.puts_write (survey : Survey) (settings : Settings) :
    (survey.write settings).Puts fun q =>
      ∃ output ∈ [settings.reportFile, settings.draftFile],
        q = output.location := by
  have hput : ∀ output ∈ [settings.reportFile, settings.draftFile],
      ∀ (v : Value) (s : Store),
      s.Evolves (fun q => ∃ output ∈ [settings.reportFile, settings.draftFile],
        q = output.location)
        (writeValue output v s).2 :=
    fun output houtput v s => (evolves_writeValue s output v).mono fun q hq =>
      ⟨output, houtput, hq⟩
  refine .bind (.changing (hput _ (by simp) _)) fun _ =>
    .bind (.changing (hput _ (by simp) _)) fun _ => ?_
  exact .of_keepsFiles (.bind (.notify _) fun _ => .pure _)

namespace Command

/-- The outputs that a request is to write, with the settings that it finds. -/
def Request.outputs (order : SetOrder) (s : Store) : Request → List FilePath
  | .run _ config report draft key =>
    match runSettings order config report draft key s with
    | .ok settings => [settings.reportFile, settings.draftFile]
    | .error _ => []
  | _ => []

theorem SeesSame.outputs {s t : Store} {request : Request}
    (h : SeesSame s t request) (order : SetOrder) :
    request.outputs order t = request.outputs order s := by
  cases request with
  | run directory config report draft key =>
    rw [Request.outputs, Request.outputs, h.runSettings]
  | _ => rfl

/-- One command, from whatever it finds. -/
theorem evolves_answer (order : SetOrder) (request : Request) (m : Machine) :
    m.store.Evolves (fun q => ∃ output ∈ request.outputs order m.store,
      q = output.location)
      ((answer order request).runOn m).2.store := by
  by_cases hrun : ∃ directory config report draft key,
    request = .run directory config report draft key
  · obtain ⟨directory, config, report, draft, key, rfl⟩ := hrun
    have hwork : m.store.Evolves
        (fun q => ∃ output ∈
          (Request.run directory config report draft key).outputs order m.store,
          q = output.location)
        ((runJob order directory config report draft key).runOn m).2.store := by
      rw [runJob, Job.runOn_bind, Job.runOn_reading, Request.outputs]
      cases runSettings order config report draft key m.store with
      | error failure => exact .refl
      | ok settings =>
        -- the survey of the corpus leaves all files as they are
        refine Job.Puts.bind (.of_keepsFiles (.reading _)) (fun corpus => ?_) m
        refine .bind (.of_keepsFiles (Survey.keepsFiles_job corpus settings))
          fun survey => ?_
        exact .bind (Survey.puts_write survey settings) fun _ =>
          .of_keepsFiles (.pure _)
    rw [answer, runOn_supervised]
    rcases hjob : (runJob order directory config report draft key).runOn m with
        ⟨failure | _, left⟩ <;>
      rw [hjob] at hwork
    · rw [((keepsFiles_settle failure) left).store]
      exact hwork
    · exact hwork
  · push Not at hrun
    exact Job.Puts.of_keepsFiles (keepsFiles_answer hrun) m

/-! ## Commands in a row -/

/-- A command line in a process, with the order in which the process goes
through sets and the markup that its console refuses. -/
structure Call where
  order : SetOrder
  refuses : String → Bool
  args : List String

namespace Call

/-- What a command line asks for. -/
def request (call : Call) : Request := requestOfLine call.args

/-- A call on a store, without an interrupt. -/
def runOn (call : Call) (s : Store) : Except Failure Ending × Machine :=
  (run call.order call.args).runOn ⟨s, ⟨[], 0, none, call.refuses⟩, []⟩

end Call

/-- The files after calls that are made one after the other. -/
def filesAfter (s : Store) (calls : List Call) : Store :=
  calls.foldl (fun t call => (call.runOn t).2.store) s

theorem filesAfter_concat (s : Store) (calls : List Call) (call : Call) :
    filesAfter s (calls ++ [call])
      = (call.runOn (filesAfter s calls)).2.store := by
  rw [filesAfter, List.foldl_append]
  rfl

/-- Whatever is called, a tree stays a tree. -/
theorem isTree_filesAfter {s : Store} (h : s.IsTree) (calls : List Call) :
    (filesAfter s calls).IsTree := by
  induction calls using List.reverseRecOn with
  | nil => exact h
  | append_singleton calls call ih =>
    rw [filesAfter_concat]
    exact ih.evolves (evolves_answer call.order call.request
      ⟨filesAfter s calls, ⟨[], 0, none, call.refuses⟩, []⟩)

/-- Calls about one directory, `found` as its path is followed. Their settings
files are there, and their outputs lie outside the directory and in no settings
file's place. -/
structure Apart (s : Store) (found : Except FileProblem Location)
    (calls : List Call) : Prop where
  directory : ∀ call ∈ calls, ∀ directory,
    call.request.directory? = some directory →
    s.resolve (.ofString directory) = found
  settings : ∀ call ∈ calls, ∀ file, call.request.settingsFile? = some file →
    ∃ bytes, s.read (.ofString file) = .ok bytes
  outside : ∀ call ∈ calls, ∀ output ∈ call.request.outputs call.order s,
    ∀ base, found = .ok base → ¬base <+: output.location
  others : ∀ call ∈ calls, ∀ output ∈ call.request.outputs call.order s,
    ∀ call' ∈ calls, ∀ file, call'.request.settingsFile? = some file →
      output.location ≠ (FilePath.ofString file).location

/-- Where the outputs of calls go. -/
def outputPlaces (s : Store) (calls : List Call) (q : Location) : Prop :=
  ∃ call ∈ calls, ∃ output ∈ call.request.outputs call.order s,
    q = output.location

namespace Apart

variable {s t : Store} {found : Except FileProblem Location} {calls : List Call}
  {call : Call} {base : Location}

/-- A command sees of a store that has evolved, with files at the places of the
outputs only, what it saw at first. -/
theorem seesSame_of_evolves (h : Apart s (.ok base) calls) (htree : s.IsTree)
    (hbase : s.lookup base = some .directory)
    (hevolves : s.Evolves (outputPlaces s calls) t) (hcall : call ∈ calls) :
    SeesSame s t call.request := by
  have hout : ∀ q, outputPlaces s calls q → ¬base <+: q := by
    rintro q ⟨call', hcall', output, houtput, rfl⟩
    exact h.outside call' hcall' output houtput base rfl
  have hroot : ∀ directory, call.request.directory? = some directory →
      s.resolve (.ofString directory) = .ok base := h.directory call hcall
  refine ⟨fun order file hfile => ?_, fun directory hdirectory => ?_,
    fun directory c hdirectory hopen => ?_⟩
  · obtain ⟨bytes, hread⟩ := h.settings call hcall file hfile
    have hnot : ¬outputPlaces s calls (FilePath.ofString file).location := by
      rintro ⟨call', hcall', output, houtput, hplace⟩
      exact h.others call' hcall' output houtput call hcall file
        hfile hplace.symm
    obtain ⟨hsame, hfind⟩ := hevolves.read hread hnot
    rw [Settings.load, Settings.load, hsame, hfind]
  · have hroot := hroot directory hdirectory
    have hopens : ∀ u : Store, u.resolve (.ofString directory) = .ok base →
        u.lookup base = some .directory →
          u.filesBelow base = s.filesBelow base →
        Corpus.open? u (.ofString directory)
          = .ok ⟨.ofString directory,
              s.documentsBelow (.ofString directory) base⟩ := by
      intro u hu hdirectory hfiles
      refine Corpus.open?_eq_ok.mpr ⟨base, hu, hdirectory, ?_⟩
      rw [Store.documentsBelow, Store.documentsBelow, hfiles]
    rw [hopens s hroot hbase rfl]
    exact hopens t (hevolves.keepsDirectories.resolve hroot)
      (hevolves.keepsDirectories base hbase) (hevolves.filesBelow hout)
  · have hroot := hroot directory hdirectory
    obtain ⟨base', hroot', _, rfl⟩ := Corpus.open?_eq_ok.mp hopen
    cases hroot.symm.trans hroot'
    intro file hfile
    obtain ⟨names, hnames, rfl⟩ := List.mem_map.mp hfile
    have hbelow :=
      List.mem_of_mem_filter ((List.mergeSort_perm _ _).mem_iff.mp hnames)
    exact hevolves.read_below htree hroot hbase hbelow hout

/-- Each command leaves a store that has evolved with files at the places of the
outputs only. -/
theorem evolves_filesAfter (h : Apart s (.ok base) calls) (htree : s.IsTree)
    (hbase : s.lookup base = some .directory) {past : List Call}
    (hpast : ∀ call ∈ past, call ∈ calls) :
    s.Evolves (outputPlaces s calls) (filesAfter s past) := by
  induction past using List.reverseRecOn with
  | nil => exact .refl
  | append_singleton past call ih =>
    have hbefore :=
      ih fun call hcall => hpast call (List.mem_append_left _ hcall)
    have hcall := hpast call (by simp)
    rw [filesAfter_concat]
    refine hbefore.trans ((evolves_answer call.order call.request
      ⟨filesAfter s past, ⟨[], 0, none, call.refuses⟩, []⟩).mono fun q hq => ?_)
    rw [(h.seesSame_of_evolves htree hbase hbefore hcall).outputs] at hq
    exact ⟨call, hcall, hq⟩

/-- Where there is no directory, nothing is ever written. -/
theorem filesAfter_of_no_directory (h : Apart s found calls)
    (hnone : ¬∃ base, found = .ok base ∧ s.lookup base = some .directory)
    {past : List Call} (hpast : ∀ call ∈ past, call ∈ calls) :
    filesAfter s past = s := by
  induction past using List.reverseRecOn with
  | nil => rfl
  | append_singleton past call ih =>
    have hcall := hpast call (by simp)
    rw [filesAfter_concat,
      ih fun call hcall => hpast call (List.mem_append_left _ hcall),
      Call.runOn, run]
    by_cases hrun : ∃ directory config report draft key,
        requestOfLine call.args = .run directory config report draft key
    · obtain ⟨directory, config, report, draft, key, hrequest⟩ := hrun
      have hfails : ∃ failure,
          prepared call.order directory config report draft key s
          = .error failure := by
        cases hprepared :
            prepared call.order directory config report draft key s with
        | error failure => exact ⟨failure, rfl⟩
        | ok p =>
          obtain ⟨_, hopen, _⟩ := prepared_eq_ok.mp hprepared
          obtain ⟨base, hroot, hbase, _⟩ := Corpus.open?_eq_ok.mp hopen
          have hfound :=
            h.directory call hcall directory
              (by rw [Call.request, hrequest]; rfl)
          exact absurd ⟨base, hfound.symm.trans hroot, hbase⟩ hnone
      obtain ⟨failure, hfails⟩ := hfails
      rw [hrequest]
      obtain ⟨_, _, _, hs, _⟩ := (SeesSame.refl s _).run_of_error hfails
        ⟨[], 0, none, call.refuses⟩ []
      rw [hs]
    · push Not at hrun
      exact (keepsFiles_answer hrun _).store

/-- Whatever commands come before it, a command sees what it saw at first. -/
theorem seesSame (h : Apart s found calls) (htree : s.IsTree) {past : List Call}
    (hpast : ∀ call ∈ past, call ∈ calls) (hcall : call ∈ calls) :
    SeesSame s (filesAfter s past) call.request := by
  by_cases hdirectory :
    ∃ base, found = .ok base ∧ s.lookup base = some .directory
  · obtain ⟨base, rfl, hbase⟩ := hdirectory
    exact h.seesSame_of_evolves htree hbase
      (h.evolves_filesAfter htree hbase hpast) hcall
  · rw [h.filesAfter_of_no_directory hdirectory hpast]
    exact .refl s _

end Apart

/-! ## Runs that are repeated -/

/-- A run that has succeeded succeeds once more on the files that it has left,
in whatever order sets are gone through then. Only the draft can have changed,
and only if its resource types have. -/
theorem run_again {order : SetOrder} {directory : String}
    {config report draft key : Option Given} {s t : Store}
    {refuses : String → Bool} {left : Machine}
    (hrun : (runJob order directory config report draft key).runOn
      ⟨t, ⟨[], 0, none, refuses⟩, []⟩ = (.ok (), left))
    (hsees : prepared order directory config report draft key t
      = prepared order directory config report draft key s)
    (order' : SetOrder)
    (hsees' : prepared order' directory config report draft key left.store
      = prepared order' directory config report draft key s) :
    ∃ first settings after,
      runSettings order config report draft key s = .ok first
      ∧ runSettings order' config report draft key s = .ok settings
      ∧ (runJob order' directory config report draft key).runOn
          ⟨left.store, ⟨[], 0, none, refuses⟩, []⟩ = (.ok (), after)
      ∧ (∀ q, q ≠ settings.draftFile.location → after.store.lookup q
          = left.store.lookup q)
      ∧ (settings.resourceTypes = first.resourceTypes →
          ∀ q, after.store.lookup q = left.store.lookup q) := by
  obtain ⟨p, made, hprepared, hreport, hdraft, hlaysOut⟩ := runJob_eq_ok hrun
  rw [hsees] at hprepared
  have hform :=
    (Json.broken_fileText _).mp (Survey.writeValue_eq_ok.mp hdraft).2
  obtain ⟨p', hprepared', halike⟩ := prepared_in_order order' hprepared hform
  obtain ⟨made', left', hreport', hdraft', hothers, hsame⟩ :=
    Survey.writeValue_again hreport hdraft halike.hasForm
  rw [← halike.reportFile, ← halike.report] at hreport'
  rw [← halike.draftFile] at hdraft' hothers
  rw [← halike.closing_eq] at hlaysOut
  have hagain : ∃ after, (runJob order' directory config report draft key).runOn
        ⟨left.store, ⟨[], 0, none, refuses⟩, []⟩ = (.ok (), after)
          ∧ after.store = left' :=
    runJob_of_prepared rfl hlaysOut (hsees'.trans hprepared') hreport' hdraft'
  obtain ⟨after, hafter, rfl⟩ := hagain
  exact ⟨p.settings, p'.settings, after, (prepared_eq_ok.mp hprepared).1,
    (prepared_eq_ok.mp hprepared').1, hafter, hothers,
    fun htypes => hsame (by rw [halike.draft_eq htypes])⟩

theorem answer_run_eq_ok {order : SetOrder} {directory : String}
    {config report draft key : Option Given} {m : Machine} {ending : Ending}
    (h : ((answer order (.run directory config report draft key)).runOn m).1
      = .ok ending)
    (hcode : ending.code = 0) :
    ∃ left, (runJob order directory config report draft key).runOn m
      = (.ok (), left)
      ∧ (answer order (.run directory config report draft key)).runOn m
        = (.ok (.plain 0), left) := by
  rw [answer, runOn_supervised] at h ⊢
  rcases hjob : (runJob order directory config report draft key).runOn m with
      ⟨failure | _, left⟩ <;>
    simp only [hjob] at h ⊢
  · exact absurd hcode (code_settle (Prod.ext h rfl))
  · exact ⟨left, rfl, rfl⟩

end Command

/-- The directory of one number, with a settings file beside it. -/
def Store.configured : Store :=
  ⟨Store.single.entries ++ [(["c.yaml"], .file "name: Tag\n".toUTF8)]⟩

namespace Command

theorem seesSame_configured :
    SeesSame .single .configured (.run "x" none none none none) where
  settings _ _ hfile := by cases hfile
  corpus directory hdirectory := by
    cases hdirectory
    rw [Corpus.open?_single]
    exact Corpus.open?_of_singleton rfl rfl rfl
  files directory c hdirectory hopen := by
    cases hdirectory
    cases hopen.symm.trans Corpus.open?_single
    simpa [Store.ReadsAlike, Corpus.single]
      using (rfl : Store.configured.read _ = Store.single.read _)

/-- Two runs with the usual settings, and between them the table of fields with
those of the file. The first call goes through sets backwards. -/
def Call.onConfigured : List Call :=
  [⟨.backwards, fun _ => false, ["run", "x"]⟩,
    ⟨.written, fun _ => false, ["schema", "x", "-c", "c.yaml"]⟩,
    ⟨.written, fun _ => false, ["run", "x"]⟩]

theorem apart_configured : Apart .configured (.ok ["x"]) Call.onConfigured := by
  have hrequests : ∀ call ∈ Call.onConfigured,
      call.request = .run "x" none none none none
        ∨ call.request = .schema "x" (some (.text "c.yaml")) := by
    simp only [Call.onConfigured, List.forall_mem_cons, List.not_mem_nil,
      false_imp_iff, implies_true, and_true]
    exact ⟨.inl rfl, .inr rfl, .inl rfl⟩
  have hfile : ∀ call ∈ Call.onConfigured, ∀ file,
      call.request.settingsFile? = some file → file = "c.yaml" := by
    intro call hcall file hfile
    rcases hrequests call hcall with hrequest | hrequest <;>
      rw [hrequest] at hfile <;> cases hfile
    rfl
  have houtput : ∀ call ∈ Call.onConfigured,
      ∀ output ∈ call.request.outputs call.order .configured,
        output.location = ["verification.json"]
          ∨ output.location = ["brand-type.json"] := by
    intro call hcall output houtput
    rcases hrequests call hcall with hrequest | hrequest <;>
      rw [hrequest] at houtput
    · rcases List.mem_pair.mp houtput with rfl | rfl
      · exact .inl rfl
      · exact .inr rfl
    · cases houtput
  constructor
  · intro call hcall directory hdirectory
    rcases hrequests call hcall with hrequest | hrequest <;>
      rw [hrequest] at hdirectory <;>
      cases hdirectory <;> rfl
  · intro call hcall file hsettings
    rw [hfile call hcall file hsettings]
    exact ⟨_, rfl⟩
  · intro call hcall output hout base hbase
    cases hbase
    rcases houtput call hcall output hout with hplace | hplace <;>
      rw [hplace] <;> decide
  · intro call hcall output hout call' hcall' file hsettings
    rw [hfile call' hcall' file hsettings]
    rcases houtput call hcall output hout with hplace | hplace <;>
      rw [hplace] <;> decide

end Command

end LeafSurvey

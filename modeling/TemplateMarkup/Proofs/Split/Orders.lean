import TemplateMarkup.Proofs.Split.Projects

/-!
Batches in any order. What becomes of a template, and what is written for it, depends on its own files and
on the projects; the splitting of other templates touches neither. So in whatever order a batch is given,
the same is written for each template, and as the files of different templates are different, the same
files are left.
-/
namespace TemplateMarkup

namespace FileTree

variable {t u v : FileTree} {path : Text} {place : Place} {ws vs : List (Text × Text)}

/-- Two trees with the same directories and the same files. -/
structure Same (t u : FileTree) : Prop where
  dirs : u.dirs = t.dirs
  content : ∀ place, u.content? place = t.content? place

/-- Paths to different files, as far as they lead to any. -/
def Apart (t : FileTree) (f g : Text) : Prop :=
  ∀ place, t.target? f = some place → t.target? g ≠ some place

theorem apart_comm {f g : Text} (apart : t.Apart f g) : t.Apart g f :=
  fun place second first => apart place first second

theorem lookup_congr (dirs : u.dirs = t.dirs)
    (kept : t.isDirPlace place = false → u.content? place = t.content? place) :
    u.lookup place = t.lookup place := by
  have same : u.isDirPlace place = t.isDirPlace place := by
    unfold isDirPlace
    rw [dirs]
  unfold lookup
  rw [same]
  cases dir : t.isDirPlace place with
  | true => rfl
  | false => rw [kept dir]

def writesTo (t : FileTree) (place : Place) (w : Text × Text) : Bool := t.target? w.1 == some place

/-- A place holds what was written there last, or what it held before. -/
theorem Written.content?_eq (written : Written t ws u) (place : Place) :
    u.content? place =
      ((ws.filter (t.writesTo place)).getLast?.map fun w => Content.text w.2).or (t.content? place) := by
  induction written with
  | nil => rfl
  | @cons t u here path content ws target later ih =>
    have same : (t.put here (.text content)).writesTo place = t.writesTo place := by
      funext w
      rw [writesTo, writesTo, (put_extends (target_free target) (.text content)).target]
    rw [ih, same, content?_put]
    by_cases equal : place = here
    · subst equal
      have first : t.writesTo place (path, content) = true := by simp [writesTo, target]
      rw [if_pos rfl, List.filter_cons_of_pos first, List.getLast?_cons]
      cases (ws.filter (t.writesTo place)).getLast? <;> rfl
    · have other : ¬t.writesTo place (path, content) = true := by
        simpa [writesTo, target] using Ne.symm equal
      rw [if_neg equal, List.filter_cons_of_neg other]

theorem Written.same (one : Written t ws u) (two : Written t vs v)
    (equal : ∀ place, ws.filter (t.writesTo place) = vs.filter (t.writesTo place)) : u.Same v where
  dirs := two.extends.dirs.trans one.extends.dirs.symm
  content place := by rw [one.content?_eq, two.content?_eq, equal]

end FileTree

namespace BatchReport

theorem processed_eq (r : BatchReport) : r.processed = r.succeeded + r.skipped + r.failed := by
  obtain ⟨items⟩ := r
  unfold processed succeeded skipped failed
  induction items with
  | nil => rfl
  | cons i items ih =>
    dsimp only at ih
    rcases i with ⟨path, _ | reason | reason⟩ <;>
      simp [BatchStatus.isOk, BatchStatus.isSkipped, BatchStatus.failure?, ih] <;> omega

end BatchReport

namespace Split

open FileTree FileAction

variable {t u v : FileTree} {path x : Text} {place : Place} {ws : List (Text × Text)}

/-- Two trees that look the same from a template: paths lead to the same places, the template and the
files beside it are the same, and so are the projects. -/
structure Alike (t u : FileTree) (path : Text) : Prop where
  extended : t.Extends u
  own : ∀ place, t.target? path = some place → ∀ x ∈ companions suffixes path, t.Keeps u x
  projects : ∀ p, Project.fileIn? u p = Project.fileIn? t p

theorem alike_refl (t : FileTree) (path : Text) : Alike t t path :=
  ⟨extends_refl t, fun _ _ _ _ _ _ => rfl, fun _ => rfl⟩

theorem find_companion (target : t.target? path = some place) (extended : t.Extends u)
    (member : x ∈ companions suffixes path) (kept : t.Keeps u x) : u.find x = t.find x := by
  obtain ⟨dir, name, rfl, leads⟩ := exists_leads target
  obtain ⟨dir', name', same, leads'⟩ := exists_leads ((extended.target path).trans target)
  obtain ⟨rfl, names⟩ := List.append_inj' same rfl
  obtain rfl := List.singleton_inj.mp names
  have looked : ∀ p, t.find x = .ok (t.lookup p) → u.lookup p = t.lookup p := by
    intro p found
    refine lookup_congr extended.dirs fun free => kept p ?_
    rcases lookup_cases t p with ⟨dir, -⟩ | ⟨-, ⟨c, -, here⟩ | ⟨-, here⟩⟩
    · rw [free] at dir
      cases dir
    · rw [target?, found, here]
    · rw [target?, found, here]
  rcases List.mem_cons.mp member with rfl | member
  · rw [leads'.found, leads.found, looked _ leads.found]
  · obtain ⟨s, listed, rfl⟩ := List.mem_map.mp member
    obtain ⟨slash, zero⟩ := suffixes_proper.plain s listed
    have found := leads.beside s slash zero
    rw [leads'.beside s slash zero, found]
    split
    · rfl
    · rename_i short
      rw [if_neg short] at found
      rw [looked _ found]

theorem Alike.find (alike : Alike t u path) (target : t.target? path = some place)
    (member : x ∈ companions suffixes path) : u.find x = t.find x :=
  find_companion target alike.extended member (alike.own place target x member)

theorem Alike.isFile (alike : Alike t u path) : u.isFile path = t.isFile path := by
  cases target : t.target? path with
  | none =>
    have nowhere : ∀ {w : FileTree}, w.target? path = none → w.isFile path = false := by
      intro w nothing
      rw [← Bool.not_eq_true, isFile_iff]
      rintro ⟨place, c, somewhere, -⟩
      rw [nothing] at somewhere
      cases somewhere
    rw [nowhere target, nowhere ((alike.extended.target path).trans target)]
  | some place =>
    unfold FileTree.isFile
    rw [alike.find target (List.mem_cons_self ..)]

theorem Alike.plan (alike : Alike t u path) (target : t.target? path = some place) :
    plan path u = plan path t := by
  have reads : u.readText path = t.readText path := by
    unfold FileTree.readText FileTree.read
    rw [alike.find target (List.mem_cons_self ..)]
  have beside : ∀ s ∈ suffixes, u.has (path ++ s) = t.has (path ++ s) := fun s listed =>
    has_congr (alike.find target (List.mem_cons_of_mem _ (List.mem_map_of_mem listed)))
  have conflicts : ∀ parts, conflict? u path parts = conflict? t path parts := by
    intro parts
    unfold conflict? Path.codeBehind Path.companionStylesheet
    dsimp only
    rw [beside ".cs".toList (by decide), beside ".css".toList (by decide)]
  have files : ∀ template, newFiles u path template = newFiles t path template := by
    intro template
    unfold newFiles codeFile
    rw [Namespace.resolve_congr template target ((alike.extended.target path).trans target)
      alike.extended.workingDir alike.projects]
  unfold Split.plan
  simp only [alike.isFile, reads, conflicts, files]

/-- A write beside a template that has nowhere to go is refused for the same reason in any tree. -/
theorem write_refused (target : t.target? path = some place) (member : x ∈ companions suffixes path)
    (nowhere : t.target? x = none) :
    ∃ e, ∀ content u, t.Extends u → FileAction.write x content u = (.failed e, u) := by
  have found : ∀ {u}, t.Extends u → u.find x = t.find x := fun extended =>
    find_companion target extended member fun p there => by
      rw [nowhere] at there
      cases there
  obtain ⟨e, refused⟩ := write_nowhere nowhere []
  refine ⟨e, fun content u extended => ?_⟩
  unfold FileAction.write FileTree.write at refused ⊢
  rw [found extended]
  cases here : t.find x with
  | error fault =>
    rw [here] at refused
    rw [← Outcome.failed.inj (Prod.mk.inj refused).1]
  | ok reached =>
    rw [here] at refused
    rw [target?, here] at nowhere
    cases reached with
    | file p c => cases nowhere
    | vacant p => cases nowhere
    | dir p => rw [← Outcome.failed.inj (Prod.mk.inj refused).1]
    | above => rw [← Outcome.failed.inj (Prod.mk.inj refused).1]

/-- Of the files beside a template the same ones are written in any tree, up to the first one that is
refused. -/
theorem writeAll_alike (target : t.target? path = some place)
    (own : ∀ w ∈ ws, w.1 ∈ companions suffixes path) :
    ∃ performed : List (Text × Text), (∀ w ∈ performed, w ∈ ws) ∧
      ((∀ u, t.Extends u → ∃ v, Written u performed v ∧ writeAll ws u = (.done (), v)) ∨
        ∃ e, ∀ u, t.Extends u → ∃ v, Written u performed v ∧ writeAll ws u = (.failed e, v)) := by
  induction ws with
  | nil => exact ⟨[], fun _ member => member, Or.inl fun u _ => ⟨u, Written.nil, rfl⟩⟩
  | cons w ws ih =>
    obtain ⟨x, content⟩ := w
    cases here : t.target? x with
    | none =>
      obtain ⟨e, refused⟩ := write_refused target (own _ (List.mem_cons_self ..)) here
      refine ⟨[], fun _ member => (nomatch member), Or.inr ⟨e, fun u extended => ⟨u, Written.nil, ?_⟩⟩⟩
      rw [writeAll, bind_apply, refused content u extended]
    | some p =>
      obtain ⟨performed, listed, later⟩ := ih fun w member => own w (List.mem_cons_of_mem _ member)
      have first : ∀ {u : FileTree}, t.Extends u → u.target? x = some p := fun extended =>
        (extended.target x).trans here
      have next : ∀ {u}, t.Extends u → t.Extends (u.put p (.text content)) := fun extended =>
        extended.trans (put_extends (target_free (first extended)) _)
      refine ⟨(x, content) :: performed, ?_, ?_⟩
      · rintro w (_ | ⟨_, member⟩)
        · exact List.mem_cons_self ..
        · exact List.mem_cons_of_mem _ (listed w member)
      · rcases later with done | ⟨e, failed⟩
        · refine Or.inl fun u extended => ?_
          obtain ⟨v, written, run⟩ := done _ (next extended)
          exact ⟨v, Written.cons (first extended) written, (writeAll_cons (first extended) content ws).trans run⟩
        · refine Or.inr ⟨e, fun u extended => ?_⟩
          obtain ⟨v, written, run⟩ := failed _ (next extended)
          exact ⟨v, Written.cons (first extended) written, (writeAll_cons (first extended) content ws).trans run⟩

theorem plan_companions {message : Text} (planned : plan path t = .done (ws, message)) :
    ∀ w ∈ ws, w.1 ∈ companions suffixes path := by
  obtain ⟨template, -, -, rfl, -⟩ := plan_done_iff.mp planned
  intro w member
  rcases List.mem_append.mp member with new | markup
  · exact newPaths_companions (newFiles_path t new)
  · rw [List.mem_singleton.mp markup]
    exact List.mem_cons_self ..

theorem batchItem_done {message : Text} (isFile : t.isFile path = true)
    (run : file path t = (.done message, u)) : batchItem path t = (.done ⟨path, .ok⟩, u) := by
  unfold batchItem
  rw [look_bind, isFile, if_neg (by decide), bind_apply, attempt, run]
  rfl

theorem batchItem_failed {e : Error} (isFile : t.isFile path = true)
    (run : file path t = (.failed e, u)) : batchItem path t = (.done ⟨path, .failed e.message⟩, u) := by
  unfold batchItem
  rw [look_bind, isFile, if_neg (by decide), bind_apply, attempt, run]
  rfl

/-- What is told about a template and what is written for it. -/
structure Fate (t : FileTree) (path : Text) (status : BatchStatus) (ws : List (Text × Text)) : Prop where
  own : ∀ w ∈ ws, (t.target? path).isSome ∧ w.1 ∈ companions suffixes path
  run : ∀ u, Alike t u path → ∃ v, batchItem path u = (.done ⟨path, status⟩, v) ∧ Written u ws v

theorem exists_fate (t : FileTree) (path : Text) : ∃ status ws, Fate t path status ws := by
  cases isFile : t.isFile path with
  | false =>
    refine ⟨.skipped "Not Found", [], fun _ member => (nomatch member), fun u alike => ⟨u, ?_, Written.nil⟩⟩
    unfold batchItem
    rw [look_bind, alike.isFile, isFile]
    rfl
  | true =>
    obtain ⟨place, -, target, -⟩ := isFile_iff.mp isFile
    have leads : (t.target? path).isSome := by rw [target]; rfl
    have carried : ∀ {u}, Alike t u path → file path u = carryOut (plan path t) u := fun {u} alike => by
      rw [file_eq, alike.plan target]
    cases planned : plan path t with
    | brokenOff => exact absurd planned plan_never_brokenOff
    | failed e =>
      refine ⟨.failed e.message, [], fun _ member => (nomatch member), fun u alike => ⟨u, ?_, Written.nil⟩⟩
      refine batchItem_failed (alike.isFile.trans isFile) ?_
      rw [carried alike, planned]
      rfl
    | done all =>
      obtain ⟨ws, message⟩ := all
      have own := plan_companions planned
      obtain ⟨performed, listed, done | ⟨e, failed⟩⟩ := writeAll_alike target own
      · refine ⟨.ok, performed, fun w member => ⟨leads, own w (listed w member)⟩, fun u alike => ?_⟩
        obtain ⟨v, written, run⟩ := done u alike.extended
        have ran : file path u = (.done message, v) := by
          rw [carried alike, planned, carryOut, bind_apply, run]
          rfl
        exact ⟨v, batchItem_done (alike.isFile.trans isFile) ran, written⟩
      · refine ⟨.failed e.message, performed, fun w member => ⟨leads, own w (listed w member)⟩,
          fun u alike => ?_⟩
        obtain ⟨v, written, run⟩ := failed u alike.extended
        have ran : file path u = (.failed e, v) := by
          rw [carried alike, planned, carryOut, bind_apply, run]
        exact ⟨v, batchItem_failed (alike.isFile.trans isFile) ran, written⟩

/-- The splitting of another template makes no difference. -/
theorem Alike.after {other : Text} {status : BatchStatus} (alike : Alike t u path)
    (fate : Fate t other status ws) (written : Written u ws v) (template : Path.isTemplate path = true)
    (template' : Path.isTemplate other = true) (apart : t.Apart other path) : Alike t v path where
  extended := alike.extended.trans written.extends
  own place target x member p there := by
    rw [← alike.own place target x member p there]
    refine written.kept fun w listed here => ?_
    obtain ⟨leads, beside⟩ := fate.own w listed
    obtain ⟨q, target'⟩ := Option.isSome_iff_exists.mp leads
    have different : q ≠ place := by
      rintro rfl
      exact apart q target' target
    have same := alike.extended.target
    exact companions_apart suffixes_proper template' template ((same other).trans target')
      ((same path).trans target) different beside member here ((same x).trans there)
  projects p := by
    rw [← alike.projects]
    refine Project.fileIn?_written written (fun w listed dir name here => ?_) p
    obtain ⟨leads, beside⟩ := fate.own w listed
    obtain ⟨q, target'⟩ := Option.isSome_iff_exists.mp leads
    exact Project.companion_not_project template' ((alike.extended.target other).trans target') beside here

/-- A batch does to each template what would be done to it alone. -/
theorem exists_run_alike {status : Text → BatchStatus} {writes : Text → List (Text × Text)}
    (fate : ∀ path, Fate t path (status path) (writes path)) (paths : List Text)
    (templates : ∀ p ∈ paths, Path.isTemplate p = true) (apart : paths.Pairwise t.Apart)
    (alike : ∀ p ∈ paths, Alike t u p) :
    ∃ v, Run batchItem u (paths.map fun p => (p, ⟨p, status p⟩)) v ∧
      Written u (paths.flatMap writes) v := by
  induction paths generalizing u with
  | nil => exact ⟨u, Run.nil, Written.nil⟩
  | cons p paths ih =>
    obtain ⟨others, rest⟩ := List.pairwise_cons.mp apart
    obtain ⟨w, first, written⟩ := (fate p).run u (alike p (List.mem_cons_self ..))
    obtain ⟨v, run, later⟩ := ih (fun q member => templates q (List.mem_cons_of_mem _ member)) rest
      fun q member => (alike q (List.mem_cons_of_mem _ member)).after (fate p) written
        (templates q (List.mem_cons_of_mem _ member)) (templates p (List.mem_cons_self ..)) (others q member)
    refine ⟨v, Run.cons first run, ?_⟩
    rw [List.flatMap_cons]
    exact written_append_iff.mpr ⟨w, written, later⟩

/-- Different templates are not written to one place. -/
theorem filter_eq_nil {status status' : BatchStatus} {vs : List (Text × Text)} {f g : Text}
    (one : Fate t f status ws) (two : Fate t g status' vs) (template : Path.isTemplate f = true)
    (template' : Path.isTemplate g = true) (apart : t.Apart f g) (place : Place) :
    ws.filter (t.writesTo place) = [] ∨ vs.filter (t.writesTo place) = [] := by
  apply Classical.byContradiction
  intro both
  rw [not_or] at both
  obtain ⟨w, mine⟩ := List.exists_mem_of_ne_nil _ both.1
  obtain ⟨w', yours⟩ := List.exists_mem_of_ne_nil _ both.2
  obtain ⟨mine, here⟩ := List.mem_filter.mp mine
  obtain ⟨yours, there⟩ := List.mem_filter.mp yours
  obtain ⟨p, target⟩ := Option.isSome_iff_exists.mp (one.own w mine).1
  obtain ⟨q, target'⟩ := Option.isSome_iff_exists.mp (two.own w' yours).1
  have different : p ≠ q := by
    rintro rfl
    exact apart p target target'
  exact companions_apart suffixes_proper template template' target target' different (one.own w mine).2
    (two.own w' yours).2 (beq_iff_eq.mp here) (beq_iff_eq.mp there)

theorem filter_perm {status : Text → BatchStatus} {writes : Text → List (Text × Text)}
    (fate : ∀ path, Fate t path (status path) (writes path)) {order paths : List Text}
    (perm : order.Perm paths) (templates : ∀ p ∈ order, Path.isTemplate p = true)
    (apart : order.Pairwise t.Apart) (place : Place) :
    (order.flatMap writes).filter (t.writesTo place) = (paths.flatMap writes).filter (t.writesTo place) := by
  induction perm with
  | nil => rfl
  | cons p _ ih =>
    rw [List.flatMap_cons, List.flatMap_cons, List.filter_append, List.filter_append,
      ih (fun q member => templates q (List.mem_cons_of_mem _ member)) apart.tail]
  | swap p q rest =>
    simp only [List.flatMap_cons, List.filter_append]
    have between : t.Apart q p := (List.pairwise_cons.mp apart).1 p (List.mem_cons_self ..)
    rcases filter_eq_nil (fate q) (fate p) (templates q (by simp)) (templates p (by simp)) between place
      with none | none <;> simp [none]
  | trans first _ ih ih' =>
    rw [ih templates apart, ih' (fun p member => templates p (first.mem_iff.mpr member))
      (apart.perm first apart_comm)]

/-- A batch of templates can be given in any order: each template gets the status that it would get
alone, told where its path stands, and the same files are left. -/
theorem batch_any_order (t : FileTree) {paths : List Text}
    (templates : ∀ p ∈ paths, Path.isTemplate p = true) (apart : paths.Pairwise t.Apart) :
    ∃ (status : Text → BatchStatus) (u : FileTree),
      (∀ p ∈ paths, ∃ v, batchItem p t = (.done ⟨p, status p⟩, v)) ∧
      ∀ order : List Text, order.Perm paths →
        ∃ report v, batch order t = (.done report, v) ∧ u.Same v ∧
          report.items = order.map (fun p => ⟨p, status p⟩) ∧
          report.processed = report.succeeded + report.skipped + report.failed := by
  choose status writes fate using exists_fate t
  have runs : ∀ order : List Text, order.Perm paths → ∃ v,
      Run batchItem t (order.map fun p => (p, ⟨p, status p⟩)) v ∧ Written t (order.flatMap writes) v :=
    fun order perm => exists_run_alike fate order
      (fun p member => templates p (perm.mem_iff.mp member)) (apart.perm perm.symm apart_comm)
      fun p _ => alike_refl t p
  obtain ⟨u, -, left⟩ := runs paths (List.Perm.refl _)
  refine ⟨status, u, fun p _ => ?_, fun order perm => ?_⟩
  · obtain ⟨v, run, -⟩ := (fate p).run t (alike_refl t p)
    exact ⟨v, run⟩
  · obtain ⟨v, run, written⟩ := runs order perm
    refine ⟨⟨order.map fun p => ⟨p, status p⟩⟩, v, ?_, ?_, rfl, BatchReport.processed_eq _⟩
    · have whole := batch_run (order.map fun p => ⟨p, status p⟩) (t := t) (u := v) (by
        rw [List.map_map]
        exact run)
      rw [List.map_map] at whole
      simpa [Function.comp_def] using whole
    · exact left.same written fun place => (filter_perm fate perm
        (fun p member => templates p (perm.mem_iff.mp member)) (apart.perm perm.symm apart_comm) place).symm

/-- A template of a project, another one for whose style there is a file already, and none. -/
def trio : FileTree where
  files :=
    [(["A.razor"], .text "<p></p>@code \x7b int n; \x7d"), (["App.csproj"], .text []),
      (["B.razor"], .text "<p></p><style>p \x7b\x7d</style>"), (["B.razor.css"], .text [])]

def trioPaths : List Text := ["A.razor", "B.razor", "C.razor"]

def refusal : BatchStatus := .failed "Refusing to overwrite existing file: B.razor.css"

theorem trio_any_order : ∃ u : FileTree,
    (∃ report v, batch trioPaths trio = (.done report, v) ∧ u.Same v ∧
      report.items =
        [⟨"A.razor", .ok⟩, ⟨"B.razor", refusal⟩, ⟨"C.razor", .skipped "Not Found"⟩]) ∧
    ∃ report v, batch trioPaths.reverse trio = (.done report, v) ∧ u.Same v ∧
      report.items =
        [⟨"C.razor", .skipped "Not Found"⟩, ⟨"B.razor", refusal⟩, ⟨"A.razor", .ok⟩] := by
  have apart : trioPaths.Pairwise trio.Apart := by
    have different : trioPaths.Pairwise fun f g => trio.target? f ≠ trio.target? g := by decide +kernel
    exact different.imp fun other place first second => other (first.trans second.symm)
  obtain ⟨status, u, alone, orders⟩ := batch_any_order trio (by decide) apart
  have told : ∀ {p : Text} {s : BatchStatus}, p ∈ trioPaths →
      (batchItem p trio).1 = .done ⟨p, s⟩ → status p = s := by
    intro p s member item
    obtain ⟨v, run⟩ := alone p member
    rw [run] at item
    exact (BatchItem.mk.inj (Outcome.done.inj item)).2
  have first : status "A.razor" = .ok := told (by decide) (by decide +kernel)
  have second : status "B.razor" = refusal := told (by decide) (by decide +kernel)
  have third : status "C.razor" = .skipped "Not Found" := told (by decide) (by decide +kernel)
  refine ⟨u, ?_, ?_⟩
  · obtain ⟨report, v, run, same, items, -⟩ := orders _ (List.Perm.refl _)
    refine ⟨report, v, run, same, items.trans ?_⟩
    rw [← first, ← second, ← third]
    rfl
  · obtain ⟨report, v, run, same, items, -⟩ := orders _ (List.reverse_perm _)
    refine ⟨report, v, run, same, items.trans ?_⟩
    rw [← first, ← second, ← third]
    rfl

end Split

end TemplateMarkup

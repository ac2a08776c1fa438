import TemplateMarkup.Proofs.FileTree.Places

/-!
Actions that look at the files first and write afterwards. Such an action has a plan: what it writes,
and the answer that it gives in the end. If all writes but the first one have a place to go to, the
action does all of them or changes nothing.
-/
namespace TemplateMarkup

namespace FileTree

variable {t u v : FileTree} {place : Place} {path : Text} {ws vs : List (Text × Text)}

/-- Every path leads where it led before; files may be new or hold something else. -/
structure Extends (t u : FileTree) : Prop where
  dirs : u.dirs = t.dirs
  workingDir : u.workingDir? = t.workingDir?
  target : ∀ path, u.target? path = t.target? path
  isDir : ∀ path, u.isDir path = t.isDir path
  tooLong : ∀ path, u.find path = .error .nameTooLong ↔ t.find path = .error .nameTooLong

theorem extends_refl (t : FileTree) : t.Extends t :=
  ⟨rfl, rfl, fun _ => rfl, fun _ => rfl, fun _ => Iff.rfl⟩

theorem Extends.trans (first : t.Extends u) (second : u.Extends v) : t.Extends v where
  dirs := second.dirs.trans first.dirs
  workingDir := second.workingDir.trans first.workingDir
  target path := (second.target path).trans (first.target path)
  isDir path := (second.isDir path).trans (first.isDir path)
  tooLong path := (second.tooLong path).trans (first.tooLong path)

theorem put_extends (free : t.isDirPlace place = false) (content : Content) :
    t.Extends (t.put place content) := by
  have views : ∀ path, (t.put place content).target? path = t.target? path ∧
      (t.put place content).isDir path = t.isDir path := by
    intro path
    have walk := find_put free content path
    unfold target? isDir
    generalize t.find path = before at walk
    generalize (t.put place content).find path = after at walk
    cases walk with
    | error same => exact ⟨rfl, rfl⟩
    | ok found =>
      cases found with
      | file other c => by_cases same : other = place <;> simp [Found.put, same]
      | vacant other => by_cases same : other = place <;> simp [Found.put, same]
      | dir other => exact ⟨rfl, rfl⟩
      | above => exact ⟨rfl, rfl⟩
  refine ⟨?_, workingDir?_put t place content, fun path => (views path).1, fun path => (views path).2,
    fun path => ?_⟩
  · unfold put
    split <;> rfl
  · have walk := find_put free content path
    generalize t.find path = before at walk
    generalize (t.put place content).find path = after at walk
    cases walk with
    | error same => simpa using same
    | ok found => simp

/-- A path that leads elsewhere finds what it found before. -/
theorem put_found {found : Found} (free : t.isDirPlace place = false) (content : Content)
    (here : t.find path = .ok found) (other : t.target? path ≠ some place) :
    (t.put place content).find path = .ok found := by
  have walk := find_put free content path
  rw [target?, here] at other
  rw [here] at walk
  generalize (t.put place content).find path = after at walk
  cases walk with
  | ok =>
    cases found with
    | file place' c =>
      have apart : place' ≠ place := fun same => other (congrArg some same)
      simp [Found.put, apart]
    | vacant place' =>
      have apart : place' ≠ place := fun same => other (congrArg some same)
      simp [Found.put, apart]
    | dir place' => rfl
    | above => rfl

theorem has_iff : t.has path = true ↔
    t.isDir path = true ∨ ∃ place, t.target? path = some place ∧ (t.content? place).isSome := by
  rw [has, Bool.or_eq_true, isFile_iff, or_comm]
  simp only [Option.isSome_iff_exists, exists_and_left]

theorem find_ok (leads : t.has path = true ∨ (t.target? path).isSome) (fault : FileFault) :
    t.find path ≠ .error fault := by
  intro found
  rcases leads with has | target
  · rw [FileTree.has, isFile, isDir, found] at has
    cases has
  · rw [target?, found] at target
    cases target

theorem readText_iff {text : Text} : t.readText path = .done text ↔
    ∃ place, t.target? path = some place ∧ t.content? place = some (.text text) := by
  constructor
  · intro reads
    have file : ∃ place, t.find path = .ok (.file place (.text text)) := by
      unfold readText FileTree.read at reads
      cases find : t.find path with
      | error fault => simp [find] at reads
      | ok found =>
        rw [find] at reads
        cases found with
        | file place c => cases c <;> simp_all
        | vacant place => cases reads
        | dir place => cases reads
        | above => cases reads
    obtain ⟨place, found⟩ := file
    have target : t.target? path = some place := by rw [target?, found]
    refine ⟨place, target, ?_⟩
    obtain ⟨-, ⟨c, held, same⟩ | ⟨-, vacant⟩⟩ := find_of_target target
    · rw [found] at same
      rw [held, (Found.file.inj (Except.ok.inj same)).2]
    · rw [found] at vacant
      cases vacant
  · rintro ⟨place, target, content⟩
    obtain ⟨-, ⟨c, held, found⟩ | ⟨vacant, -⟩⟩ := find_of_target target
    · obtain rfl := Option.some.inj (content.symm.trans held)
      rw [readText, FileTree.read, found]
    · rw [content] at vacant
      cases vacant

theorem has_of_readText {text : Text} (reads : t.readText path = .done text) : t.has path = true := by
  obtain ⟨place, target, content⟩ := readText_iff.mp reads
  exact has_iff.mpr (Or.inr ⟨place, target, by rw [content]; rfl⟩)

theorem readText_congr {other text : Text} (same : u.find path = t.find other)
    (reads : t.readText other = .done text) : u.readText path = .done text := by
  have read : u.read path = t.read other := by
    unfold FileTree.read
    rw [same]
  unfold FileTree.readText at reads ⊢
  rw [read]
  cases held : t.read other with
  | ok content => rwa [held] at reads
  | error fault =>
    rw [held] at reads
    cases reads

theorem has_congr {other : Text} (same : u.find path = t.find other) : u.has path = t.has other := by
  unfold FileTree.has isFile isDir
  rw [same]

/-- Texts are written one after another, each at the place that its path leads to. -/
inductive Written : FileTree → List (Text × Text) → FileTree → Prop where
  | nil {t : FileTree} : Written t [] t
  | cons {t u : FileTree} {place : Place} {path content : Text} {ws : List (Text × Text)}
      (target : t.target? path = some place)
      (later : Written (t.put place (.text content)) ws u) : Written t ((path, content) :: ws) u

theorem Written.extends (written : Written t ws u) : t.Extends u := by
  induction written with
  | nil => exact extends_refl _
  | cons target later ih => exact (put_extends (target_free target) _).trans ih

/-- A place that holds something else afterwards is one that was written to. -/
theorem Written.kept (written : Written t ws u)
    (other : ∀ w ∈ ws, t.target? w.1 ≠ some place) : u.content? place = t.content? place := by
  induction written with
  | nil => rfl
  | @cons t u here path content ws target later ih =>
    have same := (put_extends (target_free target) (.text content)).target
    have apart : place ≠ here := by
      rintro rfl
      exact other _ (List.mem_cons_self ..) target
    rw [ih fun w member => by rw [same]; exact other w (List.mem_cons_of_mem _ member)]
    rw [content?_put, if_neg apart]

theorem Written.found_kept {found : Found} (written : Written t ws u) (here : t.find path = .ok found)
    (other : ∀ w ∈ ws, ∀ place, t.target? w.1 = some place → t.target? path ≠ some place) :
    u.find path = .ok found := by
  induction written with
  | nil => exact here
  | @cons t u place w content ws target later ih =>
    have same := (put_extends (target_free target) (.text content)).target
    refine ih (put_found (target_free target) _ here (other _ (List.mem_cons_self ..) place target)) ?_
    intro w member place' there
    rw [same] at there ⊢
    exact other w (List.mem_cons_of_mem _ member) place' there

def Keeps (t u : FileTree) (path : Text) : Prop :=
  ∀ place, t.target? path = some place → u.content? place = t.content? place

theorem Extends.has_eq (extended : t.Extends u) (kept : t.Keeps u path) : u.has path = t.has path := by
  rw [Bool.eq_iff_iff, has_iff, has_iff, extended.isDir, extended.target]
  have same : ∀ place, t.target? path = some place ∧ (u.content? place).isSome ↔
      t.target? path = some place ∧ (t.content? place).isSome :=
    fun place => and_congr_right fun target => by rw [kept place target]
  simp only [same]

/-- A write fails only where a directory is, or nothing leads. -/
def PlainWrites (t : FileTree) (path : Text) : Prop :=
  ∀ content fault, t.write path content = .error fault →
    fault = .isDirectory ∨ fault = .notFound ∨ fault = .notDirectory

theorem PlainWrites.short (plain : t.PlainWrites path) : t.find path ≠ .error .nameTooLong := by
  intro long
  have failed : t.write path (.text []) = .error .nameTooLong := by rw [write, long]
  rcases plain _ _ failed with dir | absent | file
  · cases dir
  · cases absent
  · cases file

structure ChangesOnly (t u : FileTree) (paths : List Text) : Prop where
  dirs : u.dirs = t.dirs
  places : ∀ place, u.content? place ≠ t.content? place → ∃ p ∈ paths, t.target? p = some place

theorem ChangesOnly.mono {paths more : List Text} (changes : t.ChangesOnly u paths)
    (listed : ∀ p ∈ paths, p ∈ more) : t.ChangesOnly u more where
  dirs := changes.dirs
  places place changed := by
    obtain ⟨p, member, target⟩ := changes.places place changed
    exact ⟨p, listed p member, target⟩

theorem ChangesOnly.trans {paths : List Text} (first : t.ChangesOnly u paths) (extended : t.Extends u)
    (second : u.ChangesOnly v paths) : t.ChangesOnly v paths where
  dirs := second.dirs.trans first.dirs
  places place changed := by
    by_cases later : v.content? place = u.content? place
    · exact first.places place (later ▸ changed)
    · obtain ⟨p, member, target⟩ := second.places place later
      exact ⟨p, member, (extended.target p).symm.trans target⟩

theorem changesOnly_refl (t : FileTree) (paths : List Text) : t.ChangesOnly t paths :=
  ⟨rfl, fun _ changed => absurd rfl changed⟩

theorem Written.changesOnly (written : Written t ws u) : t.ChangesOnly u (ws.map (·.1)) where
  dirs := written.extends.dirs
  places place changed := by
    apply Classical.byContradiction
    intro other
    refine changed (written.kept fun w member target => other ⟨w.1, ?_, target⟩)
    exact List.mem_map_of_mem member

theorem Written.keeps (written : Written t ws u)
    (other : ∀ w ∈ ws, ∀ place, t.target? w.1 = some place → t.target? path ≠ some place) :
    t.Keeps u path :=
  fun place target => written.kept fun w member here => other w member place here target

theorem Written.leads (written : Written t ws u) : ∀ w ∈ ws, (t.target? w.1).isSome := by
  induction written with
  | nil => exact fun w member => nomatch member
  | @cons t u here path content ws target later ih =>
    rintro w (_ | ⟨_, member⟩)
    · rw [target]
      rfl
    · rw [← (put_extends (target_free target) (.text content)).target]
      exact ih w member

theorem written_append_iff : Written t (ws ++ vs) v ↔ ∃ u, Written t ws u ∧ Written u vs v := by
  constructor
  · intro written
    induction ws generalizing t with
    | nil => exact ⟨t, Written.nil, written⟩
    | cons w ws ih =>
      obtain _ | ⟨target, later⟩ := written
      obtain ⟨u, first, second⟩ := ih later
      exact ⟨u, Written.cons target first, second⟩
  · rintro ⟨u, first, second⟩
    induction first with
    | nil => exact second
    | cons target later ih => exact Written.cons target (ih second)

theorem Written.last {content : Text} (written : Written t (ws ++ [(path, content)]) u) :
    ∃ v place, Written t ws v ∧ t.target? path = some place ∧ u = v.put place (.text content) := by
  obtain ⟨v, before, _ | ⟨target, ⟨⟩⟩⟩ := written_append_iff.mp written
  exact ⟨v, _, before, before.extends.target path ▸ target, rfl⟩

/-- What is written stays, unless something else is written there later. -/
theorem Written.stays {content : Text} (written : Written t (ws ++ (path, content) :: vs) u)
    (other : ∀ w ∈ vs, t.target? w.1 ≠ t.target? path) : u.readText path = .done content := by
  obtain ⟨v, before, _ | ⟨target, later⟩⟩ := written_append_iff.mp written
  rename_i place
  have first := before.extends
  have second := put_extends (target_free target) (.text content)
  rw [readText_iff]
  refine ⟨place, by rw [later.extends.target, second.target, target], ?_⟩
  rw [later.kept, content?_put, if_pos rfl]
  intro w member
  rw [second.target, first.target, ← target, first.target]
  exact other w member

theorem exists_written (ws : List (Text × Text)) (lead : ∀ w ∈ ws, (t.target? w.1).isSome) :
    ∃ u, Written t ws u := by
  induction ws generalizing t with
  | nil => exact ⟨t, Written.nil⟩
  | cons w ws ih =>
    obtain ⟨place, target⟩ := Option.isSome_iff_exists.mp (lead w (List.mem_cons_self ..))
    have same := (put_extends (target_free target) (.text w.2)).target
    obtain ⟨u, later⟩ := ih fun w member => by
      rw [same]
      exact lead w (List.mem_cons_of_mem _ member)
    exact ⟨u, Written.cons target later⟩

end FileTree

theorem Outcome.bind_done_iff {α β : Type} {x : Outcome α} {f : α → Outcome β} {b : β} :
    x.bind f = .done b ↔ ∃ a, x = .done a ∧ f a = .done b := by
  cases x <;> simp [Outcome.bind]

namespace FileAction

open FileTree

variable {α β : Type} {t u : FileTree} {path content : Text} {ws : List (Text × Text)}
  {planned : Outcome (List (Text × Text) × α)}

theorem bind_apply (x : FileAction α) (f : α → FileAction β) (t : FileTree) :
    (x >>= f) t =
      match x t with
      | (.done a, t) => f a t
      | (.failed e, t) => (.failed e, t)
      | (.brokenOff, t) => (.brokenOff, t) := rfl

theorem bind_pure_self (x : FileAction α) : (x >>= fun a => pure a) = x := by
  funext t
  rw [bind_apply]
  rcases x t with ⟨_ | _ | _, u⟩ <;> rfl

theorem bind_bind {γ : Type} (x : FileAction α) (f : α → FileAction β) (g : β → FileAction γ) :
    (x >>= f >>= g) = x >>= fun a => f a >>= g := by
  funext t
  simp only [bind_apply]
  rcases x t with ⟨_ | _ | _, u⟩ <;> rfl

instance : LawfulMonad FileAction :=
  .mk' FileAction bind_pure_self (fun _ _ => rfl) bind_bind

theorem look_bind (f : FileTree → α) (g : α → FileAction β) (t : FileTree) :
    (look f >>= g) t = g (f t) t := rfl

theorem write_target {place : Place} (target : t.target? path = some place) :
    write path content t = (.done (), t.put place (.text content)) := by
  obtain ⟨-, ⟨c, -, found⟩ | ⟨-, found⟩⟩ := find_of_target target <;>
    simp [write, FileTree.write, found]

theorem write_nowhere (nowhere : t.target? path = none) (content : Text) :
    ∃ e, write path content t = (.failed e, t) := by
  unfold write FileTree.write
  unfold target? at nowhere
  cases find : t.find path with
  | error fault => exact ⟨_, rfl⟩
  | ok found =>
    rw [find] at nowhere
    cases found with
    | file place c => cases nowhere
    | vacant place => cases nowhere
    | dir place => exact ⟨_, rfl⟩
    | above => exact ⟨_, rfl⟩

def writeAll : List (Text × Text) → FileAction Unit
  | [] => pure ()
  | (path, content) :: ws => do
    write path content
    writeAll ws

theorem writeAll_cons {place : Place} (target : t.target? path = some place) (content : Text)
    (ws : List (Text × Text)) :
    writeAll ((path, content) :: ws) t = writeAll ws (t.put place (.text content)) := by
  rw [writeAll, bind_apply, write_target target]

theorem writeAll_nowhere (nowhere : t.target? path = none) (content : Text) (ws : List (Text × Text)) :
    ∃ e, writeAll ((path, content) :: ws) t = (.failed e, t) := by
  obtain ⟨e, refused⟩ := write_nowhere nowhere content
  exact ⟨e, by rw [writeAll, bind_apply, refused]⟩

theorem writeAll_done (written : Written t ws u) : writeAll ws t = (.done (), u) := by
  induction written with
  | nil => rfl
  | cons target later ih => rw [writeAll_cons target, ih]

theorem writeAll_total (ws : List (Text × Text)) (t : FileTree) :
    (∃ u, Written t ws u) ∨ ∃ e u, writeAll ws t = (.failed e, u) := by
  induction ws generalizing t with
  | nil => exact Or.inl ⟨t, Written.nil⟩
  | cons w ws ih =>
    cases target : t.target? w.1 with
    | none =>
      obtain ⟨e, refused⟩ := writeAll_nowhere target w.2 ws
      exact Or.inr ⟨e, t, refused⟩
    | some place =>
      rcases ih (t.put place (.text w.2)) with ⟨u, later⟩ | ⟨e, u, failed⟩
      · exact Or.inl ⟨u, Written.cons target later⟩
      · exact Or.inr ⟨e, u, (writeAll_cons target w.2 ws).trans failed⟩

/-- If all texts but the first one have a place to go to, they are all written or none is. -/
theorem writeAll_all_or_none (lead : ∀ w ∈ ws.tail, (t.target? w.1).isSome) :
    (∃ u, Written t ws u) ∨ ∃ e, writeAll ws t = (.failed e, t) := by
  cases ws with
  | nil => exact Or.inl ⟨t, Written.nil⟩
  | cons w ws =>
    cases target : t.target? w.1 with
    | none => exact Or.inr (writeAll_nowhere target w.2 ws)
    | some place =>
      left
      refine exists_written (w :: ws) ?_
      rintro v (_ | ⟨_, member⟩)
      · rw [target]
        rfl
      · exact lead v member

/-- Carries out what is planned: texts are written, and an answer is given. -/
def carryOut : Outcome (List (Text × Text) × α) → FileAction α
  | .done (ws, answer) => do
    writeAll ws
    return answer
  | .failed e => fail e
  | .brokenOff => ofOutcome .brokenOff

/-- What is looked at first belongs to the plan. -/
theorem observe_carryOut {f : FileTree → Outcome α} {g : α → FileAction β}
    {next : α → Outcome (List (Text × Text) × β)} (each : ∀ a, g a t = carryOut (next a) t) :
    (observe f >>= g) t = carryOut ((f t).bind next) t := by
  rw [bind_apply, observe]
  cases f t with
  | done a => exact each a
  | failed e => rfl
  | brokenOff => rfl

theorem ofOutcome_carryOut {x : Outcome α} {g : α → FileAction β}
    {next : α → Outcome (List (Text × Text) × β)} (each : ∀ a, g a t = carryOut (next a) t) :
    (ofOutcome x >>= g) t = carryOut (x.bind next) t :=
  observe_carryOut (f := fun _ => x) each

theorem carryOut_done (ws : List (Text × Text)) (answer : α) (t : FileTree) :
    (∃ u, Written t ws u ∧ carryOut (.done (ws, answer)) t = (.done answer, u)) ∨
      ∃ e u, carryOut (.done (ws, answer)) t = (.failed e, u) := by
  simp only [carryOut, bind_apply]
  rcases writeAll_total ws t with ⟨u, written⟩ | ⟨e, u, failed⟩
  · rw [writeAll_done written]
    exact Or.inl ⟨u, written, rfl⟩
  · rw [failed]
    exact Or.inr ⟨e, u, rfl⟩

theorem carryOut_done_iff {answer : α} :
    carryOut planned t = (.done answer, u) ↔ ∃ ws, planned = .done (ws, answer) ∧ Written t ws u := by
  constructor
  · intro run
    cases planned with
    | failed e => cases run
    | brokenOff => cases run
    | done all =>
      rcases carryOut_done all.1 all.2 t with ⟨v, written, done⟩ | ⟨e, v, failed⟩
      · obtain ⟨⟨rfl⟩, rfl⟩ := Prod.mk.inj (done.symm.trans run)
        exact ⟨all.1, rfl, written⟩
      · cases failed.symm.trans run
  · rintro ⟨ws, rfl, written⟩
    simp only [carryOut, bind_apply, writeAll_done written]
    rfl

/-- An action that does not give its answer has changed nothing. -/
theorem carryOut_undone {result : Outcome α}
    (lead : ∀ ws answer, planned = .done (ws, answer) → ∀ w ∈ ws.tail, (t.target? w.1).isSome)
    (run : carryOut planned t = (result, u)) (undone : ∀ answer, result ≠ .done answer) : u = t := by
  cases planned with
  | failed e => exact (congrArg Prod.snd run).symm
  | brokenOff => exact (congrArg Prod.snd run).symm
  | done all =>
    simp only [carryOut, bind_apply] at run
    rcases writeAll_all_or_none (lead all.1 all.2 rfl) with ⟨v, written⟩ | ⟨e, refused⟩
    · rw [writeAll_done written] at run
      exact absurd (congrArg Prod.fst run).symm (undone all.2)
    · rw [refused] at run
      exact (congrArg Prod.snd run).symm

theorem carryOut_brokenOff (run : carryOut planned t = (.brokenOff, u)) : planned = .brokenOff := by
  cases planned with
  | brokenOff => rfl
  | failed e => cases run
  | done all =>
    rcases carryOut_done all.1 all.2 t with ⟨v, -, done⟩ | ⟨e, v, failed⟩
    · cases done.symm.trans run
    · cases failed.symm.trans run

theorem attempt_cases {x : FileAction α} {b : Except Error α} (run : x.attempt t = (.done b, u)) :
    (∃ a, b = .ok a ∧ x t = (.done a, u)) ∨ ∃ e, b = .error e ∧ x t = (.failed e, u) := by
  unfold attempt at run
  rcases became : x t with ⟨a | e | _, v⟩ <;> rw [became] at run
  · obtain ⟨⟨rfl⟩, rfl⟩ := Prod.mk.inj run
    exact Or.inl ⟨a, rfl, rfl⟩
  · obtain ⟨⟨rfl⟩, rfl⟩ := Prod.mk.inj run
    exact Or.inr ⟨e, rfl, rfl⟩
  · cases run

end FileAction

end TemplateMarkup

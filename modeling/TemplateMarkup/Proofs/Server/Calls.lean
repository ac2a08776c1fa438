import TemplateMarkup.Proofs.FileTree.Writes
import TemplateMarkup.Server.Basic

/-!
What a request comes down to. A call names a tool and holds the arguments for it; as the tool may be
the call itself, calls nest. Only the innermost one matters.
-/
namespace TemplateMarkup.Server

variable {method name : Text} {params arguments : Json} {m : Text} {p : Json}

structure Names (params : Json) (name : Text) (arguments : Json) : Prop where
  name : params.get? "name" = some (.string name)
  arguments : (params.get? "arguments").getD .null = arguments

/-- The second request is found in the first one, below any number of calls. -/
inductive Nests : Text → Json → Text → Json → Prop where
  | here {method : Text} {params : Json} : Nests method params method params
  | call {params arguments p : Json} {name m : Text} (names : Names params name arguments)
      (inner : Nests name arguments m p) : Nests callMethod params m p

def Nameless (params : Json) : Prop := ∀ name, params.get? "name" ≠ some (.string name)

def namelessError : Error := .invalidArgument "tools/call requires a tool name"

theorem asName?_eq_some : (params.get? "name").bind Json.asText? = some name ↔
    params.get? "name" = some (.string name) := by
  have text : ∀ j : Json, j.asText? = some name ↔ j = .string name := by
    intro j
    cases j <;> simp [Json.asText?]
  rw [Option.bind_eq_some_iff]
  simp only [text, exists_eq_right]

theorem nameless_iff : (params.get? "name").bind Json.asText? = none ↔ Nameless params := by
  rw [Option.eq_none_iff_forall_ne_some]
  exact forall_congr' fun name => not_congr asName?_eq_some

theorem nameless_null : Nameless .null := fun _ present => nomatch present

theorem resolve_other (other : method ≠ callMethod) (params : Json) :
    resolve method params = .ok (method, params) := by
  rw [resolve, if_neg other]

theorem resolve_nameless (nameless : Nameless params) :
    resolve callMethod params = .error namelessError := by
  rw [resolve, if_pos rfl, nameless_iff.mpr nameless]
  rfl

theorem resolve_names (names : Names params name arguments) :
    resolve callMethod params = resolve name arguments := by
  obtain ⟨named, rfl⟩ := names
  rw [resolve, if_pos rfl, named, Option.bind_some, Json.asText?]
  dsimp only
  split
  next absent =>
    rw [absent, Option.getD_none]
    split
    next call => rw [call, resolve_nameless nameless_null, namelessError]
    next other => rw [resolve_other other]
  next inner present => rw [present, Option.getD_some]

theorem Nests.resolve_eq (nests : Nests method params m p) :
    resolve method params = resolve m p := by
  induction nests with
  | here => rfl
  | call names inner ih => rw [resolve_names names, ih]

/-- Calls end: each is part of the one around it. -/
theorem exists_innermost (method : Text) (params : Json) :
    ∃ m p, Nests method params m p ∧ (m = callMethod → Nameless p) := by
  induction size : sizeOf params using Nat.strongRecOn generalizing method params with
  | ind n ih =>
    subst size
    by_cases call : method = callMethod
    · subst call
      cases named : (params.get? "name").bind Json.asText? with
      | none => exact ⟨callMethod, params, .here, fun _ => nameless_iff.mp named⟩
      | some name =>
        replace named := asName?_eq_some.mp named
        cases present : params.get? "arguments" with
        | none =>
          have names : Names params name .null := ⟨named, by rw [present]; rfl⟩
          exact ⟨name, .null, .call names .here, fun _ => nameless_null⟩
        | some arguments =>
          have names : Names params name arguments := ⟨named, by rw [present]; rfl⟩
          obtain ⟨m, p, nests, last⟩ := ih _ (Json.sizeOf_get? present) name arguments rfl
          exact ⟨m, p, .call names nests, last⟩
    · exact ⟨method, params, .here, fun same => absurd same call⟩

/-- What becomes of an innermost request, and the files that it leaves. -/
inductive CarriedOut (m : Text) (p : Json) (t : FileTree) : Outcome Reply → FileTree → Prop where
  | nameless (call : m = callMethod) (nameless : Nameless p) :
      CarriedOut m p t (.done (.failed namelessError)) t
  | unknown (other : m ≠ callMethod) (absent : tool? m = none) :
      CarriedOut m p t (.done (.unknownMethod m)) t
  | result {tool : Json → FileAction Json} {value : Json} {u : FileTree}
      (known : tool? m = some tool) (ran : tool p t = (.done value, u)) :
      CarriedOut m p t (.done (.result value)) u
  | failed {tool : Json → FileAction Json} {e : Error} {u : FileTree}
      (known : tool? m = some tool) (ran : tool p t = (.failed e, u)) :
      CarriedOut m p t (.done (.failed e)) u
  | brokenOff {tool : Json → FileAction Json} {u : FileTree}
      (known : tool? m = some tool) (ran : tool p t = (.brokenOff, u)) :
      CarriedOut m p t .brokenOff u

theorem perform_nameless {r : Request} (resolved : resolve r.method r.params = .error namelessError)
    (t : FileTree) : perform r t = (.done (.failed namelessError), t) := by
  rw [perform, resolved]
  rfl

theorem perform_resolved {r : Request} (resolved : resolve r.method r.params = .ok (m, p))
    (other : m ≠ callMethod) (t : FileTree) : CarriedOut m p t (perform r t).1 (perform r t).2 := by
  rw [perform, resolved]
  dsimp only
  cases known : tool? m with
  | none => exact .unknown other known
  | some tool =>
    dsimp only
    rw [FileAction.bind_apply, FileAction.attempt]
    rcases ran : tool p t with ⟨value | e | _, u⟩
    · exact .result known ran
    · exact .failed known ran
    · exact .brokenOff known ran

theorem Nests.perform_eq {r : Request} (nests : Nests r.method r.params m p) :
    perform r = perform ⟨m, p, r.id⟩ := by
  unfold perform
  rw [nests.resolve_eq]

theorem perform_carriedOut (r : Request) (t : FileTree) :
    ∃ m p, Nests r.method r.params m p ∧ CarriedOut m p t (perform r t).1 (perform r t).2 := by
  obtain ⟨m, p, nests, last⟩ := exists_innermost r.method r.params
  refine ⟨m, p, nests, ?_⟩
  by_cases call : m = callMethod
  · have resolved := nests.resolve_eq
    rw [call, resolve_nameless (last call)] at resolved
    rw [perform_nameless resolved]
    exact .nameless call (last call)
  · exact perform_resolved (nests.resolve_eq.trans (resolve_other call p)) call t

end TemplateMarkup.Server

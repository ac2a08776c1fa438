import TemplateMarkup.Proofs.Json.Inline
import TemplateMarkup.Proofs.Lines
import TemplateMarkup.Proofs.Server.Calls

/-!
A session of the server. The lines of the input that are not blank are handled in order, each on
the files that those before it left. One that is no request, or a request with an id, is answered
with one line. The session ends with the input, at the first line that is not UTF-8, or where a tool
is broken off. Main statement: `session_answers_in_order`.
-/
namespace TemplateMarkup

open Text

namespace Server

/-! ### Lines -/

/-- The lines that bytes consist of, with whether a newline ends them. Only the last line may lack
it, and such a line is not empty. -/
inductive AreLines : List Nat → List (List Nat × Bool) → Prop where
  | nil : AreLines [] []
  | last {line : List Nat} (some : line ≠ []) (single : 0x0A ∉ line) :
      AreLines line [(line, false)]
  | cons {line input : List Nat} {lines : List (List Nat × Bool)} (single : 0x0A ∉ line)
      (later : AreLines input lines) : AreLines (line ++ 0x0A :: input) ((line, true) :: lines)

theorem byteLines_areLines (input : List Nat) : AreLines input (byteLines input) := by
  induction input with
  | nil => exact .nil
  | cons b input ih =>
    rw [byteLines]
    split
    next newline =>
      subst newline
      exact .cons List.not_mem_nil ih
    next other =>
      -- the byte goes in front of the first line, if there is one
      have before : ∀ {line : List Nat}, 0x0A ∉ line → 0x0A ∉ b :: line :=
        List.not_mem_cons_of_ne_of_not_mem (Ne.symm other)
      generalize byteLines input = lines at ih
      cases ih with
      | nil => exact .last (List.cons_ne_nil b []) (before List.not_mem_nil)
      | last some single => exact .last (List.cons_ne_nil b _) (before single)
      | cons single later => exact .cons (before single) later

/-! ### Responses -/

namespace Reply

def errorObject (e : Int × Text) : Json :=
  .object [("code".toList, .number (.whole e.1)), ("message".toList, .string e.2)]

/-- The member that tells what became of a request. -/
def outcome : Reply → Text × Json
  | result value => ("result".toList, value)
  | r => ("error".toList, Json.optional errorObject r.error?)

end Reply

namespace Response

def object (r : Response) : Json :=
  .object [("jsonrpc".toList, .string "2.0"), r.reply.outcome, ("id".toList, r.id)]

theorem errorObject_text (code : Int) (message : Text) :
    '\x7b' :: member "code" (Json.wholeText code) ++ "\"message\":".toList ++ Json.quote message ++
      ['\x7d'] = (Reply.errorObject (code, message)).compact := by
  have name : "\"message\":".toList = Json.quote "message" ++ [':'] := by decide
  rw [name]
  simp only [member, Reply.errorObject, Json.compact, Json.compactMembers, Json.numberText,
    List.cons_append, List.append_assoc, List.nil_append]

theorem body_eq (r : Reply) : body r = member r.outcome.1 r.outcome.2.compact := by
  cases r with
  | result value => rfl
  | _ =>
    unfold body
    dsimp only [Reply.error?]
    rw [errorObject_text]
    rfl

theorem text_eq (r : Response) : r.text = r.object.compact := by
  have version : "\"2.0\"".toList = Json.quote "2.0" := by decide
  have name : "\"id\":".toList = Json.quote "id" ++ [':'] := by decide
  rw [text, body_eq, version, name]
  simp only [member, object, Json.compact, Json.compactMembers, List.cons_append, List.append_assoc,
    List.nil_append]

/-- A line with one object in it, which has the id and either a result or an error. -/
structure Framed (r : Response) : Prop where
  text : r.text = r.object.compact
  single : '\n' ∉ r.text
  id : r.object.get? "id" = some r.id
  either : (r.object.get? "result").isSome ↔ r.object.get? "error" = none

theorem framed (r : Response) : r.Framed where
  text := r.text_eq
  single := by
    rw [r.text_eq]
    exact (Json.inline_compact r.object).newline_notMem
  id := by
    obtain ⟨reply, id⟩ := r
    cases reply <;> rfl
  either := by
    obtain ⟨reply, id⟩ := r
    cases reply with
    | result value => exact iff_of_true rfl rfl
    | _ => exact iff_of_false Bool.false_ne_true (Option.some_ne_none _)

end Response

/-! ### Answers -/

variable {t u v : FileTree} {line : Text}

/-- What is said to a line, and the files after it. A line that is no request changes nothing. -/
inductive Answered (t : FileTree) (line : Text) : Option Response → FileTree → Prop where
  | malformed {f : Json.Failure} (unread : Request.shape.ofText line = .error f) :
      Answered t line (some ⟨.malformed f, .null⟩) t
  | answer {j id p : Json} {m : Text} {reply : Reply} {u : FileTree}
      (read : Request.shape.ofText line = .ok j) (asked : j.get? "id" = some id)
      (given : id.isNull = false)
      (nests : Nests (Request.ofShaped j).method (Request.ofShaped j).params m p)
      (carried : CarriedOut m p t (.done reply) u) : Answered t line (some ⟨reply, id⟩) u
  | silent {j p : Json} {m : Text} {reply : Reply} {u : FileTree}
      (read : Request.shape.ofText line = .ok j)
      (unasked : ∀ id, j.get? "id" = some id → id.isNull = true)
      (nests : Nests (Request.ofShaped j).method (Request.ofShaped j).params m p)
      (carried : CarriedOut m p t (.done reply) u) : Answered t line none u

def BreaksOff (t : FileTree) (line : Text) (u : FileTree) : Prop :=
  ∃ j m p, Request.shape.ofText line = .ok j ∧
    Nests (Request.ofShaped j).method (Request.ofShaped j).params m p ∧ CarriedOut m p t .brokenOff u

theorem respond_cases (t : FileTree) (line : Text) :
    (∃ answer u, respond line t = (.done answer, u) ∧ Answered t line answer u) ∨
      ∃ u, respond line t = (.brokenOff, u) ∧ BreaksOff t line u := by
  unfold respond Request.read
  cases read : Request.shape.ofText line with
  | error f => exact Or.inl ⟨_, t, rfl, .malformed read⟩
  | ok j =>
    obtain ⟨m, p, nests, carried⟩ := perform_carriedOut (Request.ofShaped j) t
    simp only [Except.map, FileAction.bind_apply]
    generalize perform (Request.ofShaped j) t = performed at carried
    obtain ⟨outcome, u⟩ := performed
    cases outcome with
    | done reply =>
      refine Or.inl ⟨_, u, rfl, ?_⟩
      cases asked : (Request.ofShaped j).id with
      | none =>
        have unasked := Option.filter_eq_none_iff.mp asked
        exact .silent read (fun id present => by simpa using unasked id present) nests carried
      | some id =>
        obtain ⟨present, given⟩ := Option.filter_eq_some_iff.mp asked
        exact .answer read present (by simpa using given) nests carried
    | failed e => cases carried
    | brokenOff => exact Or.inr ⟨u, rfl, j, m, p, read, nests, carried⟩

/-! ### Sessions -/

/-- Lines are handled one after another, each on the files that the one before it left. -/
inductive Handled : FileTree → List Text → List Response → FileTree → Prop where
  | nil {t : FileTree} : Handled t [] [] t
  | cons {t u v : FileTree} {line : Text} {lines : List Text} {answer : Option Response}
      {responses : List Response} (first : Answered t line answer u)
      (later : Handled u lines responses v) :
      Handled t (line :: lines) (answer.toList ++ responses) v

def isSpoken (line : Text) : Bool := !line.all isBlank

/-- Why a session ends, with what is left of the input, and the files at the end. -/
inductive Stops (t : FileTree) : List (List Nat × Bool) → Ending → FileTree → Prop where
  | closed : Stops t [] .closed t
  | notText {l : List Nat × Bool} {rest : List (List Nat × Bool)} (bad : Text.decode? l.1 = none) :
      Stops t (l :: rest) .notText t
  | brokenOff {l : List Nat × Bool} {rest : List (List Nat × Bool)} {line : Text} {u : FileTree}
      (text : lineOf? l = some line) (spoken : isSpoken line = true) (breaks : BreaksOff t line u) :
      Stops t (l :: rest) .brokenOff u

variable {l : List Nat × Bool} {rest : List (List Nat × Bool)}

theorem serveLines_notText (unread : lineOf? l = none) :
    serveLines t (l :: rest) = ⟨[], .notText, t⟩ := by
  rw [serveLines, unread]

theorem serveLines_blank (text : lineOf? l = some line) (blank : isSpoken line = false) :
    serveLines t (l :: rest) = serveLines t rest := by
  rw [serveLines, text]
  exact if_pos (by simpa [isSpoken] using blank)

theorem serveLines_spoken (text : lineOf? l = some line) (spoken : isSpoken line = true) :
    serveLines t (l :: rest) =
      match respond line t with
      | (.done (some r), t) =>
        ⟨r.text ++ '\n' :: (serveLines t rest).output, (serveLines t rest).ending,
          (serveLines t rest).files⟩
      | (.done none, t) | (.failed _, t) => serveLines t rest
      | (.brokenOff, t) => ⟨[], .brokenOff, t⟩ := by
  rw [serveLines, text]
  exact if_neg (by simpa [isSpoken] using spoken)

/-- Lines are heard up to the one that ends the session, and what is written are the responses. -/
theorem serveLines_run (t : FileTree) (lines : List (List Nat × Bool)) :
    ∃ (heard rest : List (List Nat × Bool)) (texts : List Text) (responses : List Response)
      (u : FileTree),
      lines = heard ++ rest ∧ heard.map lineOf? = texts.map some ∧
      Handled t (texts.filter isSpoken) responses u ∧
      Stops u rest (serveLines t lines).ending (serveLines t lines).files ∧
      splitNewlines (serveLines t lines).output = responses.map Response.text ++ [[]] := by
  induction lines generalizing t with
  | nil => exact ⟨[], [], [], [], t, rfl, rfl, .nil, .closed, rfl⟩
  | cons l lines ih =>
    cases text : lineOf? l with
    | none =>
      rw [serveLines_notText text]
      have bad := Option.map_eq_none_iff.mp text
      exact ⟨[], l :: lines, [], [], t, rfl, rfl, .nil, .notText bad, rfl⟩
    | some line =>
      cases spoken : isSpoken line with
      | false =>
        obtain ⟨heard, rest, texts, responses, u, split, read, handled, stops, output⟩ := ih t
        rw [serveLines_blank text spoken]
        refine ⟨l :: heard, rest, line :: texts, responses, u, ?_, ?_, ?_, stops, output⟩
        · rw [split, List.cons_append]
        · rw [List.map_cons, List.map_cons, text, read]
        · rw [List.filter_cons_of_neg (by simp [spoken])]
          exact handled
      | true =>
        rw [serveLines_spoken text spoken]
        rcases respond_cases t line with ⟨answer, u, responds, answered⟩ | ⟨u, responds, breaks⟩
        · obtain ⟨heard, rest, texts, responses, v, split, read, handled, stops, output⟩ := ih u
          rw [responds]
          refine ⟨l :: heard, rest, line :: texts, answer.toList ++ responses, v, ?_, ?_, ?_, ?_⟩
          · rw [split, List.cons_append]
          · rw [List.map_cons, List.map_cons, text, read]
          · rw [List.filter_cons_of_pos spoken]
            exact .cons answered handled
          · cases answer with
            | none => exact ⟨stops, output⟩
            | some r =>
              have first := splitNewlines_line r.framed.single (serveLines u lines).output
              exact ⟨stops, first.trans (congrArg (r.text :: ·) output)⟩
        · rw [responds]
          exact ⟨[], l :: lines, [], [], t, rfl, rfl, .nil, .brokenOff text spoken breaks, rfl⟩

theorem session_answers_in_order (t : FileTree) (input : List Nat) :
    ∃ (heard rest : List (List Nat × Bool)) (texts : List Text) (responses : List Response)
      (u : FileTree),
      AreLines input (heard ++ rest) ∧ heard.map lineOf? = texts.map some ∧
      Handled t (texts.filter isSpoken) responses u ∧
      Stops u rest (serve t input).ending (serve t input).files ∧
      splitNewlines (serve t input).output = responses.map Response.text ++ [[]] ∧
      (∀ r ∈ responses, r.Framed) ∧
      ∀ (r : Request) (m : Text) (p : Json), Nests r.method r.params m p →
        perform r = perform ⟨m, p, r.id⟩ := by
  obtain ⟨heard, rest, texts, responses, u, split, read, handled, stops, output⟩ :=
    serveLines_run t (byteLines input)
  have lines := byteLines_areLines input
  rw [split] at lines
  exact ⟨heard, rest, texts, responses, u, lines, read, handled, stops, output,
    fun r _ => r.framed, fun _ _ _ nests => nests.perform_eq⟩

end Server

end TemplateMarkup

import TemplateMarkup.Markup.Lexeme
import TemplateMarkup.Markup.OpenTags

/-!
The next token of a state. Tokens that depend on the open tags come first. Where a state finds
nothing, the tokens of recovery are tried, and characters that start none of them are joined into
one unreadable token.
-/
namespace TemplateMarkup.Markup

structure Token where
  /-- Nothing for unreadable characters. -/
  terminal : Option Terminal
  start : Cursor
  stop : Cursor
  /-- The open tags after the token, if it is one that depends on them. -/
  tags : Option (List Tag)
  /-- Whether the token changed the open tags. -/
  changed : Bool

namespace Token

/-- The token at a place, if the readers find one. `tags` are the open tags, nothing before the first
token that depends on them. An empty token that leaves the tags alone does not count when `idle`
says so of it. -/
def read? (e : Expectation) (mode : Mode) (idle : Terminal → Bool) (tags : Option (List Tag))
    (c : Cursor) : Token ⊕ Cursor × Cursor :=
  let scanned := (Scan.read e (tags.getD []) c).bind fun s =>
    let kept := Tag.remember s.tags
    let changed := tags ≠ some kept
    if s.stop.offset ≤ c.offset && !changed && idle s.token then none
    else some ⟨some s.token, s.start, s.stop, some kept, changed⟩
  match scanned with
  | some token => .inl token
  | none =>
    match mode.read c with
    | .found t start stop => .inl ⟨some t, start, stop, none, false⟩
    | .stuck start reached => .inr (start, reached)

/-- Characters from `start` to `stop` that form no token. -/
def unreadable (start stop : Cursor) : Token := ⟨none, start, stop, none, false⟩

/-- Passes over characters until one starts a token of recovery. -/
def skipUnreadable (tags : Option (List Tag)) (start : Cursor) : (fuel : Nat) → Cursor → Token
  | 0, c => unreadable start c
  | fuel + 1, c =>
    match read? .anything .recovery (fun _ => true) tags c with
    | .inl _ => unreadable start c
    | .inr (_, reached) =>
      if reached.offset = c.offset then
        if reached.atEnd then unreadable start c
        else skipUnreadable tags start fuel (reached.skip 1)
      else skipUnreadable tags start fuel reached

def recover (tags : Option (List Tag)) (c : Cursor) : Token :=
  match read? .anything .recovery (fun _ => true) tags c with
  | .inl token => token
  | .inr (start, reached) =>
    let after := if reached.offset = start.offset then reached.skip 1 else reached
    skipUnreadable tags start c.rest.length after

/-- The next token of a state. `moved` says that reading has come forward since the last fault. -/
def read (s : State) (moved : Bool) (tags : Option (List Tag)) (c : Cursor) : Token :=
  if s = .recovery then recover tags c
  else
    let idle t := !moved || s.next? t == some s
    match read? s.expectation s.mode idle tags c with
    | .inl token => token
    | .inr _ => recover tags c

end Token

end TemplateMarkup.Markup

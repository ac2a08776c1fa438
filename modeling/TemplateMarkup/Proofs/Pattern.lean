import TemplateMarkup.Pattern.Basic

/-!
What patterns match. A pattern relates the places where its matches start to those where they end, one
case for each form of a pattern; the matcher, which follows all matches at once, finds just the related
places. A repetition without a bound may be cut off after as many rounds as the text is long, since a round
that does not advance could as well be left out.
-/
namespace TemplateMarkup

def Times {α : Type} (r : α → α → Prop) : Nat → α → α → Prop
  | 0, a, b => a = b
  | n + 1, a, c => ∃ b, r a b ∧ Times r n b c

theorem Times.trans {α : Type} {r : α → α → Prop} {m n : Nat} {a b c : α} (first : Times r m a b)
    (second : Times r n b c) : Times r (m + n) a c := by
  induction m generalizing a with
  | zero =>
    obtain rfl : a = b := first
    rwa [Nat.zero_add]
  | succ m ih =>
    obtain ⟨d, step, rest⟩ := first
    rw [Nat.succ_add]
    exact ⟨d, step, ih rest⟩

theorem Times.split {α : Type} {r : α → α → Prop} {m n : Nat} {a c : α} (whole : Times r (m + n) a c) :
    ∃ b, Times r m a b ∧ Times r n b c := by
  induction m generalizing a with
  | zero => exact ⟨a, rfl, by rwa [Nat.zero_add] at whole⟩
  | succ m ih =>
    rw [Nat.succ_add] at whole
    obtain ⟨d, step, rest⟩ := whole
    obtain ⟨b, first, second⟩ := ih rest
    exact ⟨b, ⟨d, step, first⟩, second⟩

namespace Pattern

@[simp] theorem mem_insertPlace {i j : Nat} {places : List Nat} :
    j ∈ insertPlace i places ↔ j = i ∨ j ∈ places := by
  induction places with
  | nil => simp [insertPlace]
  | cons k places ih =>
    rw [insertPlace]
    split
    · simp
    · split
      · rename_i same
        simp [same]
      · rw [List.mem_cons, ih, List.mem_cons]
        exact or_left_comm

@[simp] theorem mem_join {a b : List Nat} {j : Nat} : j ∈ join a b ↔ j ∈ a ∨ j ∈ b := by
  induction b generalizing a with
  | nil => simp [join]
  | cons i b ih =>
    have rest : j ∈ join (insertPlace i a) b ↔ j ∈ insertPlace i a ∨ j ∈ b := ih
    rw [mem_insertPlace] at rest
    rw [List.mem_cons, ← or_assoc, or_comm (a := j ∈ a)]
    exact rest

/-- A match of the pattern leads from one place to another. -/
def Spans (t : Text) : Pattern → Nat → Nat → Prop
  | empty, i, j => i = j
  | chars set, i, j => j = i + 1 ∧ ∃ c, t[i]? = some c ∧ set.contains c.toNat = true
  | look l, i, j => i = j ∧ l.holds t i = true
  | concat p q, i, k => ∃ j, Spans t p i j ∧ Spans t q j k
  | either p q, i, j => Spans t p i j ∨ Spans t q i j
  | repeated p min max, i, j =>
    ∃ n, min ≤ n ∧ (∀ m, max = some m → n ≤ min + (m - min)) ∧ Times (Spans t p) n i j

theorem Spans.forward {t : Text} {p : Pattern} {i j : Nat} (spans : p.Spans t i j) :
    i ≤ j ∧ (i = j ∨ j ≤ t.length) := by
  induction p generalizing i j with
  | empty => exact ⟨Nat.le_of_eq spans, Or.inl spans⟩
  | chars set =>
    obtain ⟨rfl, c, here, -⟩ := spans
    obtain ⟨inside, -⟩ := List.getElem?_eq_some_iff.mp here
    omega
  | look l => exact ⟨Nat.le_of_eq spans.1, Or.inl spans.1⟩
  | concat p q ihp ihq =>
    obtain ⟨k, first, second⟩ := spans
    have before := ihp first
    have after := ihq second
    omega
  | either p q ihp ihq => exact spans.elim ihp ihq
  | repeated p min max ih =>
    obtain ⟨n, -, -, times⟩ := spans
    clear max min
    induction n generalizing i with
    | zero => exact ⟨Nat.le_of_eq times, Or.inl times⟩
    | succ n rounds =>
      obtain ⟨k, first, rest⟩ := times
      have before := ih first
      have after := rounds rest
      omega

theorem exists_advancing {r : Nat → Nat → Prop} (forward : ∀ {i j}, r i j → i ≤ j) {n i j : Nat}
    (times : Times r n i j) : ∃ m, i + m ≤ j ∧ Times r m i j := by
  induction n generalizing i with
  | zero => exact ⟨0, Nat.le_of_eq times, times⟩
  | succ n ih =>
    obtain ⟨k, step, rest⟩ := times
    obtain ⟨m, advance, rounds⟩ := ih rest
    rcases Nat.eq_or_lt_of_le (forward step) with rfl | advances
    · exact ⟨m, advance, rounds⟩
    · exact ⟨m + 1, by omega, k, step, rounds⟩

section Following

variable {step : List Nat → List Nat} {r : Nat → Nat → Prop}
  (follows : ∀ {places : List Nat} {j : Nat}, j ∈ step places ↔ ∃ i ∈ places, r i j)
include follows

theorem times_closed {places : List Nat} (closed : ∀ {j}, j ∈ step places → j ∈ places) {n i j : Nat}
    (start : i ∈ places) (times : Times r n i j) : j ∈ places := by
  induction n generalizing i with
  | zero => exact times ▸ start
  | succ n ih =>
    obtain ⟨k, related, rest⟩ := times
    exact ih (closed (follows.mpr ⟨i, start, related⟩)) rest

theorem mem_iterate {n j : Nat} {places : List Nat} :
    j ∈ iterate step n places ↔ ∃ i ∈ places, Times r n i j := by
  induction n generalizing places with
  | zero => simp [iterate, Times]
  | succ n ih =>
    have next : (∃ i ∈ step places, Times r n i j) ↔ ∃ i ∈ places, Times r (n + 1) i j := by
      constructor
      · rintro ⟨k, member, rest⟩
        obtain ⟨i, start, related⟩ := follows.mp member
        exact ⟨i, start, k, related, rest⟩
      · rintro ⟨i, start, k, related, rest⟩
        exact ⟨k, follows.mpr ⟨i, start, related⟩, rest⟩
    rw [iterate]
    split
    · rename_i fixed
      rw [← next, fixed, ← ih]
      cases n with
      | zero => rfl
      | succ n => rw [iterate, if_pos fixed]
    · rw [ih, next]

theorem mem_reach {n j : Nat} {places : List Nat} :
    j ∈ reach step n places ↔ ∃ i ∈ places, ∃ k, k ≤ n ∧ Times r k i j := by
  induction n generalizing places with
  | zero => simp [reach, Times]
  | succ n ih =>
    rw [reach]
    split
    · rename_i fixed
      constructor
      · exact fun member => ⟨j, member, 0, Nat.zero_le _, rfl⟩
      · rintro ⟨i, start, k, -, times⟩
        refine times_closed follows (fun member => ?_) start times
        rw [← fixed]
        exact mem_join.mpr (Or.inr member)
    · rw [ih]
      constructor
      · rintro ⟨i, member, k, bound, times⟩
        rcases mem_join.mp member with start | member
        · exact ⟨i, start, k, by omega, times⟩
        · obtain ⟨i', start, related⟩ := follows.mp member
          exact ⟨i', start, k + 1, by omega, i, related, times⟩
      · rintro ⟨i, start, k, bound, times⟩
        cases k with
        | zero => exact ⟨i, mem_join.mpr (Or.inl start), 0, Nat.zero_le _, times⟩
        | succ k =>
          obtain ⟨i', related, rest⟩ := times
          exact ⟨i', mem_join.mpr (Or.inr (follows.mpr ⟨i, start, related⟩)), k, by omega, rest⟩

end Following

/-- The places where matches end are those that the pattern spans to. -/
theorem mem_ends {t : Text} {p : Pattern} {places : List Nat} {j : Nat} :
    j ∈ p.ends t places ↔ ∃ i ∈ places, p.Spans t i j := by
  induction p generalizing places j with
  | empty => simp [ends, Spans]
  | chars set =>
    rw [ends, List.mem_filterMap]
    refine exists_congr fun i => and_congr_right fun _ => ?_
    rw [Option.bind_eq_some_iff, Spans]
    constructor
    · rintro ⟨c, here, taken⟩
      split at taken
      · rename_i inside
        exact ⟨(Option.some.inj taken).symm, c, here, inside⟩
      · cases taken
    · rintro ⟨rfl, c, here, inside⟩
      exact ⟨c, here, if_pos inside⟩
  | look l =>
    rw [ends, List.mem_filter]
    constructor
    · exact fun ⟨start, holds⟩ => ⟨j, start, rfl, holds⟩
    · rintro ⟨i, start, rfl, holds⟩
      exact ⟨start, holds⟩
  | concat p q ihp ihq =>
    rw [ends, ihq]
    constructor
    · rintro ⟨k, member, second⟩
      obtain ⟨i, start, first⟩ := ihp.mp member
      exact ⟨i, start, k, first, second⟩
    · rintro ⟨i, start, k, first, second⟩
      exact ⟨k, ihp.mpr ⟨i, start, first⟩, second⟩
  | either p q ihp ihq =>
    rw [ends, mem_join, ihp, ihq]
    constructor
    · rintro (⟨i, start, spans⟩ | ⟨i, start, spans⟩)
      · exact ⟨i, start, Or.inl spans⟩
      · exact ⟨i, start, Or.inr spans⟩
    · rintro ⟨i, start, spans | spans⟩
      · exact Or.inl ⟨i, start, spans⟩
      · exact Or.inr ⟨i, start, spans⟩
  | repeated p min max ih =>
    have rounds : ∀ bound, j ∈ reach (ends t p) bound (iterate (ends t p) min places) ↔
        ∃ i ∈ places, ∃ n, min ≤ n ∧ n ≤ min + bound ∧ Times (p.Spans t) n i j := by
      intro bound
      rw [mem_reach ih]
      constructor
      · rintro ⟨k, member, n, few, times⟩
        obtain ⟨i, start, least⟩ := (mem_iterate ih).mp member
        exact ⟨i, start, min + n, by omega, by omega, least.trans times⟩
      · rintro ⟨i, start, n, least, few, times⟩
        obtain ⟨more, rfl⟩ := Nat.exists_eq_add_of_le least
        obtain ⟨k, first, second⟩ := times.split
        exact ⟨k, (mem_iterate ih).mpr ⟨i, start, first⟩, more, by omega, second⟩
    cases max with
    | some m =>
      rw [show ends t (repeated p min (some m)) places =
        reach (ends t p) (m - min) (iterate (ends t p) min places) from rfl, rounds]
      simp [Spans]
    | none =>
      rw [show ends t (repeated p min none) places =
        reach (ends t p) (t.length + 1) (iterate (ends t p) min places) from rfl, rounds]
      constructor
      · rintro ⟨i, start, n, least, -, times⟩
        exact ⟨i, start, n, least, by simp, times⟩
      · rintro ⟨i, start, n, least, -, times⟩
        -- the rounds beyond the least number are as few as they advance
        obtain ⟨more, rfl⟩ := Nat.exists_eq_add_of_le least
        obtain ⟨k, first, second⟩ := times.split
        obtain ⟨few, advance, second⟩ := exists_advancing (fun spans => (Spans.forward spans).1) second
        have inside : k = j ∨ j ≤ t.length :=
          (Spans.forward (p := repeated p 0 none) ⟨few, Nat.zero_le _, by simp, second⟩).2
        exact ⟨i, start, min + few, by omega, by omega, first.trans second⟩

end Pattern

end TemplateMarkup

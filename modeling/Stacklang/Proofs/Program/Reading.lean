import Stacklang.Program.Parse

namespace Stacklang.Parse

def Reply.Gives {α : Type} {start : List Located} (reply : Reply α start) (value : α)
    (rest : List Located) : Prop :=
  ∃ shorter, reply = .done value rest shorter

section Reply

variable {α β : Type} {start middle rest : List Located} {value : α}

theorem Reply.Gives.shorter {reply : Reply α start} (hgives : reply.Gives value rest) :
    rest.length < start.length :=
  hgives.1

@[simp] theorem done_gives {result : α} {left : List Located}
    {shorter : left.length < start.length} :
    (Reply.done result left shorter).Gives value rest ↔ result = value ∧ left = rest := by
  constructor
  · intro hgives
    obtain ⟨_, hdone⟩ := hgives
    cases hdone
    exact ⟨rfl, rfl⟩
  · intro heq
    obtain ⟨rfl, rfl⟩ := heq
    exact ⟨shorter, rfl⟩

@[simp] theorem not_fail_gives {need : Need} {left : List Located}
    {within : left.length ≤ start.length} :
    ¬(Reply.fail need left within : Reply α start).Gives value rest := by
  intro hgives
  obtain ⟨_, hdone⟩ := hgives
  cases hdone

theorem andThen_gives {reply : Reply β middle}
    {next : (first : β) → (after : List Located) → after.length < middle.length → Reply α start}
    {within : middle.length ≤ start.length} :
    (reply.andThen next within).Gives value rest ↔
      ∃ first after, ∃ hfirst : reply.Gives first after,
        (next first after hfirst.shorter).Gives value rest := by
  cases reply with
  | fail need left inside =>
      constructor
      · intro hgives
        exact absurd hgives not_fail_gives
      · intro hgives
        obtain ⟨_, _, hfirst, _⟩ := hgives
        exact absurd hfirst not_fail_gives
  | done first after shorter =>
      constructor
      · intro hgives
        exact ⟨first, after, ⟨shorter, rfl⟩, hgives⟩
      · intro hgives
        obtain ⟨_, _, hfirst, hnext⟩ := hgives
        obtain ⟨rfl, rfl⟩ := done_gives.mp hfirst
        exact hnext

theorem expect_gives {token : Token} {tokens : List Located} {result : Unit} :
    (expect token tokens).Gives result rest ↔ ∃ position, tokens = ⟨token, position⟩ :: rest := by
  cases tokens with
  | nil => simp [expect]
  | cons located after =>
      obtain ⟨found, position⟩ := located
      by_cases htoken : found = token
      · simp [expect, htoken]
      · simp [expect, htoken]

theorem identifier_gives {name : String} {tokens : List Located} :
    (identifier tokens).Gives name rest ↔ ∃ position, tokens = ⟨.ident name, position⟩ :: rest := by
  unfold identifier
  split
  · simp
  · next hother =>
      constructor
      · intro hgives
        exact absurd hgives not_fail_gives
      · intro hfound
        obtain ⟨position, rfl⟩ := hfound
        exact absurd rfl (hother name position rest)

theorem expect_next (token : Token) (position : Position) :
    (expect token (⟨token, position⟩ :: rest)).Gives () rest :=
  expect_gives.mpr ⟨position, rfl⟩

theorem identifier_next (name : String) (position : Position) :
    (identifier (⟨.ident name, position⟩ :: rest)).Gives name rest :=
  identifier_gives.mpr ⟨position, rfl⟩

theorem startsWith_iff {token : Token} {tokens : List Located} :
    startsWith token tokens = true ↔ ∃ position after, tokens = ⟨token, position⟩ :: after := by
  cases tokens with
  | nil => simp [startsWith]
  | cons located after =>
      obtain ⟨found, position⟩ := located
      simp [startsWith]

end Reply

def Spans (tokens rest : List Located) (words : List Token) : Prop :=
  ∃ taken, tokens = taken ++ rest ∧ taken.map Located.token = words

section Spans

variable {tokens middle rest : List Located} {first second : List Token}

@[simp] theorem spans_nil : Spans tokens rest [] ↔ tokens = rest := by
  simp [Spans]

@[simp] theorem spans_cons {token : Token} :
    Spans tokens rest (token :: second) ↔
      ∃ position after, tokens = ⟨token, position⟩ :: after ∧ Spans after rest second := by
  constructor
  · intro hspans
    obtain ⟨taken, rfl, htaken⟩ := hspans
    obtain ⟨located, after, rfl, htoken, hafter⟩ := List.map_eq_cons_iff.mp htaken
    subst htoken
    exact ⟨located.position, after ++ rest, rfl, after, rfl, hafter⟩
  · intro hspans
    obtain ⟨position, _, rfl, taken, rfl, rfl⟩ := hspans
    exact ⟨⟨token, position⟩ :: taken, rfl, rfl⟩

@[simp] theorem spans_append :
    Spans tokens rest (first ++ second) ↔
      ∃ middle, Spans tokens middle first ∧ Spans middle rest second := by
  constructor
  · intro hspans
    obtain ⟨taken, rfl, htaken⟩ := hspans
    obtain ⟨front, back, rfl, rfl, rfl⟩ := List.map_eq_append_iff.mp htaken
    exact ⟨back ++ rest, ⟨front, List.append_assoc .., rfl⟩, back, rfl, rfl⟩
  · intro hspans
    obtain ⟨_, ⟨front, rfl, rfl⟩, back, rfl, rfl⟩ := hspans
    exact ⟨front ++ back, (List.append_assoc ..).symm, List.map_append ..⟩

theorem Spans.append (hfirst : Spans tokens middle first) (hsecond : Spans middle rest second) :
    Spans tokens rest (first ++ second) :=
  spans_append.mpr ⟨middle, hfirst, hsecond⟩

theorem Spans.cons {token : Token} {position : Position} (hspans : Spans tokens rest second) :
    Spans (⟨token, position⟩ :: tokens) rest (token :: second) :=
  spans_cons.mpr ⟨position, tokens, rfl, hspans⟩

theorem spans_one {token : Token} {position : Position} :
    Spans (⟨token, position⟩ :: rest) rest [token] :=
  .cons (spans_nil.mpr rfl)

end Spans

end Stacklang.Parse

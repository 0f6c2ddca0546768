import Mathlib.Data.List.Forall2
import Stacklang.Machine.Step

namespace Stacklang

theorem forall₂_getElem? {α β : Type} {R : α → β → Prop} {left : List α} {right : List β}
    (related : List.Forall₂ R left right) (position : Nat) :
    Option.Rel R left[position]? right[position]? := by
  induction related generalizing position with
  | nil => exact .none
  | cons head _ ih =>
      cases position with
      | zero => exact .some head
      | succ position => exact ih position

/-- How the bodies of functions in two kinds of values correspond: those of plain functions, and
those of closures that have captured so many values. -/
structure Link (A B : Type) [Arity A] [Arity B] where
  function : A → B → Prop
  closure : A → B → Nat → Prop
  function_parameters : ∀ {a b}, function a b → Arity.parameters a = Arity.parameters b
  closure_parameters : ∀ {a b count}, closure a b count → Arity.parameters a = Arity.parameters b

namespace Value

variable {A B : Type} [Arity A] [Arity B]

/-- The values are the same but for bodies, and these correspond. -/
inductive Related (link : Link A B) : Value A → Value B → Prop where
  | integer (value : Int64) : Related link (.integer value) (.integer value)
  | boolean (value : Bool) : Related link (.boolean value) (.boolean value)
  | null : Related link .null .null
  | string (ref : Ref) (text : String) : Related link (.string ref text) (.string ref text)
  | array {items others} (ref : Ref) (hitems : List.Forall₂ (Related link) items others) :
      Related link (.array ref items) (.array ref others)
  | hash {entries others} (ref : Ref)
      (hhashKeys : entries.map (·.1) = others.map (·.1))
      (hkeys : List.Forall₂ (Related link) (entries.map (·.2.1)) (others.map (·.2.1)))
      (hvalues : List.Forall₂ (Related link) (entries.map (·.2.2)) (others.map (·.2.2))) :
      Related link (.hash ref entries) (.hash ref others)
  | function {body other} (ref : Ref) (hbody : link.function body other) :
      Related link (.function ref body) (.function ref other)
  | closure {body other captured others} (ref : Ref)
      (hbody : link.closure body other captured.length)
      (hcaptured : List.Forall₂ (Related link) captured others) :
      Related link (.closure ref body captured) (.closure ref other others)
  | builtin (entry : Builtin) : Related link (.builtin entry) (.builtin entry)

def PairRelated (link : Link A B) (pair : Value A × Value A) (other : Value B × Value B) : Prop :=
  Related link pair.1 other.1 ∧ Related link pair.2 other.2

def EntriesRelated (link : Link A B) (entries : Entries (Value A × Value A))
    (others : Entries (Value B × Value B)) : Prop :=
  List.Forall₂ (fun entry other => entry.1 = other.1 ∧ PairRelated link entry.2 other.2)
    entries others

variable {link : Link A B}

theorem entriesRelated_iff {entries : Entries (Value A × Value A)}
    {others : Entries (Value B × Value B)} :
    EntriesRelated link entries others ↔
      entries.map (·.1) = others.map (·.1) ∧
        List.Forall₂ (Related link) (entries.map (·.2.1)) (others.map (·.2.1)) ∧
        List.Forall₂ (Related link) (entries.map (·.2.2)) (others.map (·.2.2)) := by
  induction entries generalizing others with
  | nil => cases others <;> simp [EntriesRelated]
  | cons entry rest ih =>
      cases others with
      | nil => simp [EntriesRelated]
      | cons other others =>
          simp only [EntriesRelated, List.forall₂_cons, List.map_cons, List.cons.injEq,
            PairRelated] at ih ⊢
          rw [ih]
          constructor
          · rintro ⟨⟨hkey, hleft, hright⟩, hkeys, hlefts, hrights⟩
            exact ⟨⟨hkey, hkeys⟩, ⟨hleft, hlefts⟩, hright, hrights⟩
          · rintro ⟨⟨hkey, hkeys⟩, ⟨hleft, hlefts⟩, hright, hrights⟩
            exact ⟨⟨hkey, hleft, hright⟩, hkeys, hlefts, hrights⟩

theorem Related.ofEntries {entries : Entries (Value A × Value A)}
    {others : Entries (Value B × Value B)} (ref : Ref)
    (hentries : EntriesRelated link entries others) :
    Related link (.hash ref entries) (.hash ref others) := by
  obtain ⟨hhashKeys, hkeys, hvalues⟩ := entriesRelated_iff.mp hentries
  exact .hash ref hhashKeys hkeys hvalues

theorem Related.kind {left : Value A} {right : Value B} (related : Related link left right) :
    left.kind = right.kind := by
  cases related <;> rfl

theorem Related.isTruthy {left : Value A} {right : Value B} (related : Related link left right) :
    left.isTruthy = right.isTruthy := by
  cases related with
  | boolean value => cases value <;> rfl
  | _ => rfl

theorem Related.hashKey? {left : Value A} {right : Value B} (related : Related link left right) :
    left.hashKey? = right.hashKey? := by
  cases related <;> rfl

theorem Related.identical {left left' : Value A} {right right' : Value B}
    (hleft : Related link left right) (hright : Related link left' right') :
    left.identical left' = right.identical right' := by
  cases hleft <;> cases hright <;> rfl

mutual

theorem Related.display : ∀ (left : Value A) {right : Value B}, Related link left right →
    left.display = right.display
  | .integer _, _, related => by
      cases related
      rfl
  | .boolean _, _, related => by
      cases related
      rfl
  | .null, _, related => by
      cases related
      rfl
  | .string _ _, _, related => by
      cases related
      rfl
  | .array _ items, _, related => by
      cases related with
      | array _ hitems =>
          exact congrArg (fun texts => "[" ++ ", ".intercalate texts ++ "]")
            (displayItems_related items hitems)
  | .hash _ entries, _, related => by
      cases related with
      | hash _ hhashKeys hkeys hvalues =>
          have hentries := entriesRelated_iff.mpr ⟨hhashKeys, hkeys, hvalues⟩
          exact congrArg (fun texts => "\x7b" ++ ", ".intercalate texts ++ "\x7d")
            (displayEntries_related entries hentries)
  | .function _ _, _, related => by
      cases related with
      | function _ hbody =>
          exact congrArg (fun count => "CompiledFunction[" ++ Text.padded 1 count ++ " params]")
            (link.function_parameters hbody)
  | .closure _ _ captured, _, related => by
      cases related with
      | closure _ hbody hcaptured =>
          exact congrArg₂ (fun count free =>
              "Closure[" ++ Text.padded 1 count ++ " params, " ++ Text.padded 1 free ++ " free]")
            (link.closure_parameters hbody) hcaptured.length_eq
  | .builtin _, _, related => by
      cases related
      rfl

theorem displayItems_related : ∀ (items : List (Value A)) {others : List (Value B)},
    List.Forall₂ (Related link) items others → displayItems items = displayItems others
  | [], _, related => by
      cases related
      rfl
  | item :: rest, _, related => by
      cases related with
      | cons hitem hrest =>
          exact congrArg₂ List.cons (Related.display item hitem) (displayItems_related rest hrest)

theorem displayEntries_related : ∀ (entries : List (HashKey × Value A × Value A))
    {others : Entries (Value B × Value B)}, EntriesRelated link entries others →
    displayEntries entries = displayEntries others
  | [], _, related => by
      cases related
      rfl
  | (key, left, right) :: rest, _, related => by
      cases related with
      | @cons _ other _ _ hentry hrest =>
          obtain ⟨otherKey, left', right'⟩ := other
          exact congrArg₂ List.cons
            (congrArg₂ (fun key value => key ++ ": " ++ value) (Related.display left hentry.2.1)
              (Related.display right hentry.2.2))
            (displayEntries_related rest hrest)

end

mutual

theorem Related.same : ∀ (left : Value A) {left' : Value A} {right right' : Value B},
    Related link left right → Related link left' right' → left.same left' = right.same right'
  | .array _ items, _, _, _, hleft, hright => by
      cases hleft with
      | array _ hitems =>
          cases hright with
          | array _ hitems' => exact sameItems_related items hitems hitems'
          | _ => rfl
  | .hash _ entries, _, _, _, hleft, hright => by
      cases hleft with
      | hash _ hhashKeys hkeys hvalues =>
          cases hright with
          | hash _ hhashKeys' hkeys' hvalues' =>
              exact sameEntries_related entries
                (entriesRelated_iff.mpr ⟨hhashKeys, hkeys, hvalues⟩)
                (entriesRelated_iff.mpr ⟨hhashKeys', hkeys', hvalues'⟩)
          | _ => rfl
  | .integer _, _, _, _, hleft, hright => by cases hleft; cases hright <;> rfl
  | .boolean _, _, _, _, hleft, hright => by cases hleft; cases hright <;> rfl
  | .null, _, _, _, hleft, hright => by cases hleft; cases hright <;> rfl
  | .string _ _, _, _, _, hleft, hright => by cases hleft; cases hright <;> rfl
  | .function _ _, _, _, _, hleft, hright => by cases hleft; cases hright <;> rfl
  | .closure _ _ _, _, _, _, hleft, hright => by cases hleft; cases hright <;> rfl
  | .builtin _, _, _, _, hleft, hright => by cases hleft; cases hright <;> rfl

theorem sameItems_related : ∀ (items : List (Value A)) {items' : List (Value A)}
    {others others' : List (Value B)}, List.Forall₂ (Related link) items others →
    List.Forall₂ (Related link) items' others' → sameItems items items' = sameItems others others'
  | [], _, _, _, hleft, hright => by
      cases hleft
      cases hright <;> rfl
  | item :: rest, _, _, _, hleft, hright => by
      cases hleft with
      | cons hitem hrest =>
          cases hright with
          | nil => rfl
          | cons hitem' hrest' =>
              simp only [sameItems, Related.same item hitem hitem',
                sameItems_related rest hrest hrest']

theorem sameEntries_related : ∀ (entries : List (HashKey × Value A × Value A))
    {entries' : Entries (Value A × Value A)} {others others' : Entries (Value B × Value B)},
    EntriesRelated link entries others → EntriesRelated link entries' others' →
    sameEntries entries entries' = sameEntries others others'
  | [], _, _, _, hleft, hright => by
      cases hleft
      cases hright <;> rfl
  | (key, _, value) :: rest, _, _, _, hleft, hright => by
      cases hleft with
      | @cons _ other _ _ hentry hrest =>
          obtain ⟨otherKey, left', right'⟩ := other
          cases hright with
          | nil => rfl
          | @cons entry' other' _ _ hentry' hrest' =>
              obtain ⟨key', _, value'⟩ := entry'
              obtain ⟨otherKey', _, right''⟩ := other'
              obtain ⟨rfl, -, hvalue⟩ := hentry
              obtain ⟨rfl, -, hvalue'⟩ := hentry'
              simp only [sameEntries, Related.same value hvalue hvalue',
                sameEntries_related rest hrest hrest']

end

mutual

theorem Related.mono {wider : Link A B}
    (hfunction : ∀ {a b}, link.function a b → wider.function a b)
    (hclosure : ∀ {a b count}, link.closure a b count → wider.closure a b count) :
    ∀ (left : Value A) {right : Value B}, Related link left right → Related wider left right
  | .array _ items, _, related => by
      cases related with
      | array _ hitems => exact .array _ (forall₂_related_mono hfunction hclosure items hitems)
  | .hash _ entries, _, related => by
      cases related with
      | hash _ hhashKeys hkeys hvalues =>
          exact .ofEntries _ (entriesRelated_mono hfunction hclosure entries
            (entriesRelated_iff.mpr ⟨hhashKeys, hkeys, hvalues⟩))
  | .closure _ _ captured, _, related => by
      cases related with
      | closure _ hbody hcaptured =>
          exact .closure _ (hclosure hbody)
            (forall₂_related_mono hfunction hclosure captured hcaptured)
  | .function _ _, _, related => by
      cases related with
      | function _ hbody => exact .function _ (hfunction hbody)
  | .integer _, _, related => by
      cases related
      exact .integer _
  | .boolean _, _, related => by
      cases related
      exact .boolean _
  | .null, _, related => by
      cases related
      exact .null
  | .string _ _, _, related => by
      cases related
      exact .string _ _
  | .builtin _, _, related => by
      cases related
      exact .builtin _

theorem forall₂_related_mono {wider : Link A B}
    (hfunction : ∀ {a b}, link.function a b → wider.function a b)
    (hclosure : ∀ {a b count}, link.closure a b count → wider.closure a b count) :
    ∀ (items : List (Value A)) {others : List (Value B)},
      List.Forall₂ (Related link) items others → List.Forall₂ (Related wider) items others
  | [], _, related => by
      cases related
      exact .nil
  | item :: rest, _, related => by
      cases related with
      | cons hitem hrest =>
          exact .cons (Related.mono hfunction hclosure item hitem)
            (forall₂_related_mono hfunction hclosure rest hrest)

theorem entriesRelated_mono {wider : Link A B}
    (hfunction : ∀ {a b}, link.function a b → wider.function a b)
    (hclosure : ∀ {a b count}, link.closure a b count → wider.closure a b count) :
    ∀ (entries : List (HashKey × Value A × Value A)) {others : Entries (Value B × Value B)},
      EntriesRelated link entries others → EntriesRelated wider entries others
  | [], _, related => by
      cases related
      exact .nil
  | (_, left, right) :: rest, _, related => by
      cases related with
      | cons hentry hrest =>
          exact .cons ⟨hentry.1, Related.mono hfunction hclosure left hentry.2.1,
              Related.mono hfunction hclosure right hentry.2.2⟩
            (entriesRelated_mono hfunction hclosure rest hrest)

end

theorem EntriesRelated.insert {entries : Entries (Value A × Value A)}
    {others : Entries (Value B × Value B)} (hentries : EntriesRelated link entries others)
    (key : HashKey) {pair : Value A × Value A} {other : Value B × Value B}
    (hpair : PairRelated link pair other) :
    EntriesRelated link (Entries.insert key pair entries) (Entries.insert key other others) := by
  induction hentries with
  | nil => exact .cons ⟨rfl, hpair⟩ .nil
  | @cons entry other' rest others' hentry hrest ih =>
      obtain ⟨first, previous⟩ := entry
      obtain ⟨first', previous'⟩ := other'
      obtain ⟨rfl, hprevious⟩ := hentry
      cases horder : key.order first with
      | lt =>
          simp only [Entries.insert, horder]
          exact .cons ⟨rfl, hpair⟩ (.cons ⟨rfl, hprevious⟩ hrest)
      | eq =>
          simp only [Entries.insert, horder]
          exact .cons ⟨rfl, hpair⟩ hrest
      | gt =>
          simp only [Entries.insert, horder]
          exact .cons ⟨rfl, hprevious⟩ ih

theorem EntriesRelated.union {left right : Entries (Value A × Value A)}
    {left' right' : Entries (Value B × Value B)} (hleft : EntriesRelated link left left')
    (hright : EntriesRelated link right right') :
    EntriesRelated link (Entries.union left right) (Entries.union left' right') := by
  unfold Entries.union
  induction hright generalizing left left' with
  | nil => exact hleft
  | @cons entry other _ _ hentry hrest ih =>
      obtain ⟨key, pair⟩ := entry
      obtain ⟨key', pair'⟩ := other
      obtain ⟨rfl, hpair⟩ := hentry
      exact ih (hleft.insert key hpair)

theorem EntriesRelated.find? {entries : Entries (Value A × Value A)}
    {others : Entries (Value B × Value B)} (hentries : EntriesRelated link entries others)
    (key : HashKey) :
    Option.Rel (Related link) ((Entries.find? key entries).map (·.2))
      ((Entries.find? key others).map (·.2)) := by
  induction hentries with
  | nil => exact .none
  | @cons entry other _ _ hentry _ ih =>
      obtain ⟨first, pair⟩ := entry
      obtain ⟨first', pair'⟩ := other
      obtain ⟨rfl, hpair⟩ := hentry
      by_cases hkey : key = first
      · simp only [Entries.find?, if_pos hkey]
        exact .some hpair.2
      · simp only [Entries.find?, if_neg hkey]
        exact ih

end Value

/-- Two computations fail alike, and the program is to blame, or their results correspond. -/
inductive Fault.Related {α β : Type} (R : α → β → Prop) :
    Except Fault α → Except Fault β → Prop where
  | ok {a : α} {b : β} (hresult : R a b) : Related R (.ok a) (.ok b)
  | error (fault : Fault) (hfault : fault.ofLanguage = true) :
      Related R (.error fault) (.error fault)

namespace Machine

open Value

variable {A B : Type} [Arity A] [Arity B] {link : Link A B}

theorem operandFault_related {left right : Value A} {left' right' : Value B}
    (hleft : Value.Related link left left') (hright : Value.Related link right right')
    (op : String) : operandFault op left right = operandFault op left' right' := by
  simp only [operandFault, hleft.kind, hright.kind]

theorem hashEntries_related {entries : Entries (Value A × Value A)}
    {others : Entries (Value B × Value B)} (hentries : EntriesRelated link entries others)
    {run : List (Value A)} {run' : List (Value B)}
    (hrun : List.Forall₂ (Value.Related link) run run') :
    Fault.Related (EntriesRelated link) (hashEntries entries run) (hashEntries others run') := by
  fun_induction hashEntries entries run generalizing others run' with
  | case1 entries key value rest hunusable =>
      cases hrun with
      | cons hkey hrun =>
          cases hrun with
          | cons hvalue hrest =>
              simp only [hashEntries, ← hkey.hashKey?, hunusable, ← hkey.kind]
              exact .error _ rfl
  | case2 entries key value rest hashKey husable ih =>
      cases hrun with
      | cons hkey hrun =>
          cases hrun with
          | cons hvalue hrest =>
              simp only [hashEntries, ← hkey.hashKey?, husable]
              exact ih (hentries.insert hashKey ⟨hkey, hvalue⟩) hrest
  | case3 entries run hshort =>
      cases hrun with
      | nil => exact .ok hentries
      | @cons key _ rest _ hkey hrest =>
          cases hrest with
          | nil => exact .ok hentries
          | @cons value _ rest _ _ _ => exact absurd rfl (hshort key value rest)

theorem getD_related {found : Option (Value A)} {found' : Option (Value B)}
    (hfound : Option.Rel (Value.Related link) found found') :
    Value.Related link (found.getD .null) (found'.getD .null) := by
  cases hfound with
  | some hvalue => exact hvalue
  | none => exact .null

theorem lookUp_hash {Body : Type} (ref : Ref) (entries : Entries (Value Body × Value Body))
    (key : Value Body) : lookUp (.hash ref entries) key =
      match key.hashKey? with
      | none => .error (.unusableHashKey key.kind)
      | some hashKey => .ok (((Entries.find? hashKey entries).map (·.2)).getD .null) := by
  cases hkey : key.hashKey? with
  | none => simp [lookUp, hkey]
  | some hashKey => cases hfind : Entries.find? hashKey entries <;> simp [lookUp, hkey, hfind]

theorem lookUp_related {container index : Value A} {container' index' : Value B}
    (hcontainer : Value.Related link container container')
    (hindex : Value.Related link index index') :
    Fault.Related (Value.Related link) (lookUp container index) (lookUp container' index') := by
  cases hcontainer with
  | array ref hitems =>
      cases hindex with
      | integer position =>
          refine .ok ?_
          by_cases hnegative : position < 0
          · simp only [if_pos hnegative]
            exact .null
          · simp only [if_neg hnegative, List.getD_eq_getElem?_getD]
            exact getD_related (forall₂_getElem? hitems position.toInt.toNat)
      | _ => exact .error _ rfl
  | hash ref hhashKeys hkeys hvalues =>
      have hentries := entriesRelated_iff.mpr ⟨hhashKeys, hkeys, hvalues⟩
      rw [lookUp_hash, lookUp_hash, ← hindex.hashKey?, ← hindex.kind]
      cases index.hashKey? with
      | none => exact .error _ rfl
      | some key => exact .ok (getD_related (hentries.find? key))
  | _ => cases hindex <;> exact .error _ rfl

end Machine

end Stacklang

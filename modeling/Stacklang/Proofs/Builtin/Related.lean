import Stacklang.Proofs.Value.Related

namespace Stacklang.Builtin

open Value

/-- The two calls fail alike, or leave the same world and results that correspond. -/
def Agree {α β : Type} (R : α → β → Prop) (left : BuiltinM α) (right : BuiltinM β) : Prop :=
  ∀ world, Fault.Related (fun result other => R result.1 other.1 ∧ result.2 = other.2)
    (left.run world) (right.run world)

namespace Agree

variable {α β γ δ : Type} {R : α → β → Prop} {S : γ → δ → Prop}

theorem pure {a : α} {b : β} (h : R a b) : Agree R (pure a) (pure b) :=
  fun _ => .ok ⟨h, rfl⟩

theorem throw {fault : Fault} (hfault : fault.ofLanguage = true) :
    Agree R (throw fault) (throw fault) :=
  fun _ => .error fault hfault

theorem modifyGet (change : World → α × World) : Agree Eq (modifyGet change) (modifyGet change) :=
  fun _ => .ok ⟨rfl, rfl⟩

theorem bind {left : BuiltinM α} {right : BuiltinM β} {next : α → BuiltinM γ}
    {next' : β → BuiltinM δ} (hfirst : Agree R left right)
    (hnext : ∀ {a b}, R a b → Agree S (next a) (next' b)) :
    Agree S (left >>= next) (right >>= next') := by
  intro world
  have hrun := hfirst world
  simp only [StateT.run_bind]
  generalize left.run world = outcome at hrun
  generalize right.run world = outcome' at hrun
  cases hrun with
  | error fault hfault => exact .error fault hfault
  | @ok result other h =>
      obtain ⟨a, later⟩ := result
      obtain ⟨b, later'⟩ := other
      obtain ⟨hab, rfl⟩ := h
      exact hnext hab later

end Agree

variable {A B : Type} [Arity A] [Arity B] {link : Link A B}

abbrev ResultRelated (link : Link A B) : Option (Value A) → Option (Value B) → Prop :=
  Option.Rel (Related link)

theorem newString_agree (text : String) :
    Agree (ResultRelated link) (newString text) (newString text) := by
  refine (Agree.modifyGet World.allocate).bind ?_
  rintro ref _ rfl
  exact .pure (.some (.string ref text))

theorem newArray_agree {items : List (Value A)} {others : List (Value B)}
    (hitems : List.Forall₂ (Related link) items others) :
    Agree (ResultRelated link) (newArray items) (newArray others) := by
  refine (Agree.modifyGet World.allocate).bind ?_
  rintro ref _ rfl
  exact .pure (.some (.array ref hitems))

theorem newHash_agree {entries : Entries (Value A × Value A)}
    {others : Entries (Value B × Value B)} (hentries : EntriesRelated link entries others) :
    Agree (ResultRelated link) (newHash entries) (newHash others) := by
  refine (Agree.modifyGet World.allocate).bind ?_
  rintro ref _ rfl
  exact .pure (.some (.ofEntries ref hentries))

theorem newStrings_agree (texts : List String) :
    Agree (List.Forall₂ (Related link)) (newStrings texts) (newStrings texts) := by
  refine fun world => .ok ⟨?_, rfl⟩
  rw [List.forall₂_iff_get]
  refine ⟨by simp, fun position hleft hright => ?_⟩
  simpa using Related.string _ _

section

variable {arguments : List (Value A)} {others : List (Value B)}
  (harguments : List.Forall₂ (Related link) arguments others) (builtin : Builtin)

include harguments

theorem arityFault_related (want : String) :
    builtin.arityFault want arguments = builtin.arityFault want others := by
  simp only [arityFault, harguments.length_eq]

theorem one_agree : Agree (Related link) (builtin.one arguments) (builtin.one others) := by
  have hfault := arityFault_related harguments builtin "1"
  cases harguments with
  | nil => exact .throw rfl
  | cons hfirst hrest =>
      cases hrest with
      | nil => exact .pure hfirst
      | cons =>
          simp only [one, hfault]
          exact .throw rfl

theorem two_agree : Agree (PairRelated link) (builtin.two arguments) (builtin.two others) := by
  have hfault := arityFault_related harguments builtin "2"
  rcases harguments with - | ⟨hfirst, - | ⟨hsecond, - | ⟨_, _⟩⟩⟩
  · exact .throw rfl
  · exact .throw rfl
  · exact .pure ⟨hfirst, hsecond⟩
  · simp only [two, hfault]
    exact .throw rfl

theorem three_agree :
    Agree (fun triple other => Related link triple.1 other.1 ∧ PairRelated link triple.2 other.2)
      (builtin.three arguments) (builtin.three others) := by
  have hfault := arityFault_related harguments builtin "3"
  rcases harguments with - | ⟨hfirst, - | ⟨hsecond, - | ⟨hthird, - | ⟨_, _⟩⟩⟩⟩
  · exact .throw rfl
  · exact .throw rfl
  · exact .throw rfl
  · exact .pure ⟨hfirst, hsecond, hthird⟩
  · simp only [three, hfault]
    exact .throw rfl

end

theorem asString_agree {argument : Value A} {other : Value B}
    (hargument : Related link argument other) (builtin : Builtin) :
    Agree Eq (builtin.asString argument) (builtin.asString other) := by
  cases hargument with
  | string ref text => exact .pure rfl
  | _ => exact .throw rfl

theorem asArray_agree {argument : Value A} {other : Value B}
    (hargument : Related link argument other) (builtin : Builtin) :
    Agree (List.Forall₂ (Related link)) (builtin.asArray argument) (builtin.asArray other) := by
  cases hargument with
  | array ref hitems => exact .pure hitems
  | _ => exact .throw rfl

theorem mapString_agree {arguments : List (Value A)} {others : List (Value B)}
    (harguments : List.Forall₂ (Related link) arguments others) (builtin : Builtin)
    (f : String → String) :
    Agree (ResultRelated link) (builtin.mapString f arguments) (builtin.mapString f others) := by
  refine (one_agree harguments builtin).bind fun hargument => ?_
  refine (asString_agree hargument builtin).bind ?_
  rintro text _ rfl
  exact newString_agree (f text)

theorem applyJoin_agree {arguments : List (Value A)} {others : List (Value B)}
    (harguments : List.Forall₂ (Related link) arguments others) :
    Agree (ResultRelated link) (applyJoin arguments) (applyJoin others) := by
  have htwo := two_agree harguments join
  have hthree := three_agree harguments join
  cases harguments with
  | nil => exact .throw rfl
  | cons hfirst hrest =>
      cases hfirst with
      | array ref hitems =>
          refine htwo.bind fun hpair => ?_
          refine (asString_agree hpair.2 join).bind ?_
          rintro separator _ rfl
          rw [displayItems_related _ hitems]
          exact newString_agree _
      | string ref text =>
          refine hthree.bind fun htriple => ?_
          refine (asString_agree htriple.2.1 join).bind ?_
          rintro right _ rfl
          refine (asString_agree htriple.2.2 join).bind ?_
          rintro separator _ rfl
          exact newString_agree _
      | _ => exact .throw rfl

theorem map_same_related {items : List (Value A)} {others : List (Value B)} {item : Value A}
    {other : Value B} (hitems : List.Forall₂ (Related link) items others)
    (hitem : Related link item other) :
    items.map (·.same item) = others.map (·.same other) := by
  induction hitems with
  | nil => rfl
  | @cons first first' _ _ hfirst _ ih =>
      rw [List.map_cons, List.map_cons, ih, Related.same first hfirst hitem]

theorem any_same_related {items : List (Value A)} {others : List (Value B)} {item : Value A}
    {other : Value B} (hitems : List.Forall₂ (Related link) items others)
    (hitem : Related link item other) :
    items.any (·.same item) = others.any (·.same other) := by
  have hmap := congrArg (·.any id) (map_same_related hitems hitem)
  simpa [List.any_map, Function.comp_def] using hmap

theorem findIdx?_same_related {items : List (Value A)} {others : List (Value B)} {item : Value A}
    {other : Value B} (hitems : List.Forall₂ (Related link) items others)
    (hitem : Related link item other) :
    items.findIdx? (·.same item) = others.findIdx? (·.same other) := by
  have hmap := congrArg (·.findIdx? id) (map_same_related hitems hitem)
  simpa [List.findIdx?_map, Function.comp_def] using hmap

theorem apply_agree {arguments : List (Value A)} {others : List (Value B)}
    (harguments : List.Forall₂ (Related link) arguments others) (builtin : Builtin) :
    Agree (ResultRelated link) (builtin.apply arguments) (builtin.apply others) := by
  cases builtin with
  | puts =>
      have hprinted : arguments.map (·.display ++ "\n") = others.map (·.display ++ "\n") := by
        induction harguments with
        | nil => rfl
        | @cons first _ _ _ hfirst _ ih =>
            rw [List.map_cons, List.map_cons, ih, Related.display first hfirst]
      simp only [apply, hprinted]
      exact (Agree.modifyGet _).bind fun _ => .pure .none
  | typeOf =>
      refine (one_agree harguments typeOf).bind fun hargument => ?_
      rw [hargument.kind]
      exact newString_agree _
  | len =>
      refine (one_agree harguments len).bind fun hargument => ?_
      cases hargument with
      | string ref text => exact .pure (.some (.integer _))
      | array ref hitems =>
          simp only [hitems.length_eq]
          exact .pure (.some (.integer _))
      | _ => exact .throw rfl
  | first =>
      refine (one_agree harguments first).bind fun hargument => ?_
      refine (asArray_agree hargument first).bind fun hitems => ?_
      cases hitems with
      | nil => exact .pure .none
      | cons hitem => exact .pure (.some hitem)
  | last =>
      refine (one_agree harguments last).bind fun hargument => ?_
      refine (asArray_agree hargument last).bind fun hitems => .pure ?_
      have hlast := forall₂_getElem? (List.rel_reverse hitems) 0
      simpa only [← List.head?_eq_getElem?, List.head?_reverse] using hlast
  | rest =>
      refine (one_agree harguments rest).bind fun hargument => ?_
      refine (asArray_agree hargument rest).bind fun hitems => ?_
      cases hitems with
      | nil => exact .pure .none
      | cons _ hrest => exact newArray_agree hrest
  | push =>
      refine (two_agree harguments push).bind fun hpair => ?_
      refine (asArray_agree hpair.1 push).bind fun hitems => ?_
      exact newArray_agree (List.rel_append hitems (.cons hpair.2 .nil))
  | pop =>
      refine (one_agree harguments pop).bind fun hargument => ?_
      refine (asArray_agree hargument pop).bind fun hitems => ?_
      cases hitems with
      | nil => exact .pure (.some hargument)
      | @cons first first' rest others hitem hrest =>
          have hitems : List.Forall₂ (Related link) (first :: rest) (first' :: others) :=
            .cons hitem hrest
          have hdropped := List.forall₂_take ((first :: rest).length - 1) hitems
          rw [← List.dropLast_eq_take, hitems.length_eq, ← List.dropLast_eq_take] at hdropped
          exact newArray_agree hdropped
  | reverse =>
      refine (one_agree harguments reverse).bind fun hargument => ?_
      cases hargument with
      | string ref text => exact newString_agree _
      | array ref hitems => exact newArray_agree (List.rel_reverse hitems)
      | _ => exact .throw rfl
  | join => exact applyJoin_agree harguments
  | split =>
      refine (two_agree harguments split).bind fun hpair => ?_
      refine (asString_agree hpair.1 split).bind ?_
      rintro text _ rfl
      refine (asString_agree hpair.2 split).bind ?_
      rintro separator _ rfl
      exact (newStrings_agree _).bind fun hpieces => newArray_agree hpieces
  | replace =>
      refine (three_agree harguments replace).bind fun htriple => ?_
      refine (asString_agree htriple.1 replace).bind ?_
      rintro text _ rfl
      refine (asString_agree htriple.2.1 replace).bind ?_
      rintro part _ rfl
      refine (asString_agree htriple.2.2 replace).bind ?_
      rintro fresh _ rfl
      exact newString_agree _
  | toLower | toUpper | trim | trimLeft | trimRight => exact mapString_agree harguments _ _
  | contains =>
      refine (two_agree harguments contains).bind fun {pair other} hpair => ?_
      obtain ⟨container, item⟩ := pair
      obtain ⟨container', item'⟩ := other
      obtain ⟨hcontainer, hitem⟩ := hpair
      simp only at hcontainer hitem ⊢
      cases hcontainer with
      | string ref text =>
          refine (asString_agree hitem contains).bind ?_
          rintro part _ rfl
          exact .pure (.some (.boolean _))
      | array ref hitems =>
          simp only [any_same_related hitems hitem]
          exact .pure (.some (.boolean _))
      | _ => exact .throw rfl
  | merge =>
      refine (two_agree harguments merge).bind fun {pair other} hpair => ?_
      obtain ⟨base, overlay⟩ := pair
      obtain ⟨base', overlay'⟩ := other
      obtain ⟨hbase, hoverlay⟩ := hpair
      simp only at hbase hoverlay ⊢
      cases hbase with
      | hash ref hhashKeys hkeys hvalues =>
          have hentries := entriesRelated_iff.mpr ⟨hhashKeys, hkeys, hvalues⟩
          cases hoverlay with
          | hash ref' hhashKeys' hkeys' hvalues' =>
              exact newHash_agree
                (hentries.union (entriesRelated_iff.mpr ⟨hhashKeys', hkeys', hvalues'⟩))
          | _ => exact .throw rfl
      | _ => exact .throw rfl
  | findIndex =>
      refine (two_agree harguments findIndex).bind fun hpair => ?_
      refine (asArray_agree hpair.1 findIndex).bind fun hitems => ?_
      rw [findIdx?_same_related hitems hpair.2]
      split <;> exact .pure (.some (.integer _))

end Stacklang.Builtin

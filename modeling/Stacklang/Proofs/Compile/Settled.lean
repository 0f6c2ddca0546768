import Stacklang.Proofs.Machine.Activation
import Stacklang.Proofs.Program.Settled

namespace Stacklang

/-- From an offset on, with some locals stored, a stream reads only locals that have been stored. -/
inductive Assigned (code : Code) : Nat → List Nat → Prop where
  | stop {ip : Nat} {written : List Nat} (hend : code.fetch? ip = none) : Assigned code ip written
  | step {ip : Nat} {written : List Nat} {instruction : Instruction}
      (hfetch : code.fetch? ip = some (.ok instruction))
      (hread : instruction.op = .getLocal → instruction.operand 0 ∈ written)
      (hnext : instruction.FallsThrough →
        Assigned code (ip + instruction.size) (instruction.stores ++ written))
      (htarget : ∀ target, instruction.target? = some target → Assigned code target written) :
      Assigned code ip written

theorem Assigned.fetched {code : Code} {ip : Nat} {written : List Nat} {instruction : Instruction}
    (assigned : Assigned code ip written) (hfetch : code.fetch? ip = some (.ok instruction)) :
    (instruction.op = .getLocal → instruction.operand 0 ∈ written) ∧
      (instruction.FallsThrough →
        Assigned code (ip + instruction.size) (instruction.stores ++ written)) ∧
      ∀ target, instruction.target? = some target → Assigned code target written := by
  cases assigned with
  | stop hend =>
      rw [hend] at hfetch
      cases hfetch
  | step hfetch' hread hnext htarget =>
      rw [hfetch] at hfetch'
      cases hfetch'
      exact ⟨hread, hnext, htarget⟩

theorem assigned_return {code : Code} {ip : Nat} {written : List Nat} {instruction : Instruction}
    (hfetch : code.fetch? ip = some (.ok instruction))
    (hop : instruction.op = .returnValue ∨ instruction.op = .returnNull) :
    Assigned code ip written := by
  refine .step hfetch ?_ ?_ ?_
  · intro hread
    rcases hop with hop | hop <;> simp [hop] at hread
  · intro hfalls
    rcases hop with hop | hop
    · exact absurd hop hfalls.2.1
    · exact absurd hop hfalls.2.2
  · intro target htarget
    rcases hop with hop | hop <;> simp [Instruction.target?, Opcode.isJump, hop] at htarget

/-- A function that reads only locals that it has stored, its parameters being stored at the
beginning. -/
def Template.Settled (template : Template) : Prop :=
  Assigned template.code 0 (List.range template.parameters)

structure Instruction.Quiet (instruction : Instruction) : Prop where
  falls : instruction.FallsThrough
  jump : instruction.op.isJump = false
  reads : instruction.op ≠ .getLocal
  stores : instruction.op ≠ .setLocal

theorem Scope.own?_define (scope : Scope) (name other : String) :
    (scope.define name).2.table.own? other =
      if other = name then some (scope.define name).1 else scope.table.own? other := by
  refine scope.table.own?_define ?_ name other
  split <;> simp

namespace Compile

open Instruction

/-- Every name of the function at hand that is not in doubt has its local stored. -/
def Covers (scope : Scope) (doubts : Doubts) (written : List Nat) : Prop :=
  ∀ name symbol, scope.table.own? name = some symbol → symbol.place = .localSlot →
    name ∉ doubts → symbol.index ∈ written

theorem Covers.same {scope later : Scope} {doubts : Doubts} {written : List Nat}
    (covers : Covers scope doubts written)
    (hown : ∀ name, later.table.own? name = scope.table.own? name) :
    Covers later doubts written := by
  intro name symbol hname
  rw [hown] at hname
  exact covers name symbol hname

theorem Covers.doubt {scope later : Scope} {doubts : Doubts} {written more : List Nat}
    (covers : Covers scope doubts written) (bound : List String)
    (hown : ∀ name, name ∉ bound → later.table.own? name = scope.table.own? name)
    (hmore : ∀ slot ∈ written, slot ∈ more) : Covers later (bound ++ doubts) more := by
  intro name symbol hname hplace hdoubts
  rw [List.mem_append, not_or] at hdoubts
  rw [hown name hdoubts.1] at hname
  exact hmore _ (covers name symbol hname hplace hdoubts.2)

theorem Covers.define {scope : Scope} {doubts : Doubts} {written : List Nat}
    (covers : Covers scope doubts written) (name : String) :
    Covers (scope.define name).2 (doubts.filter (· != name))
      (scope.table.definitions :: written) := by
  intro other symbol hother hsymbol hdoubts
  rw [Scope.own?_define] at hother
  split at hother
  next =>
    cases hother
    exact List.mem_cons_self
  next hne =>
    refine List.mem_cons_of_mem _ (covers other symbol hother hsymbol fun member => hdoubts ?_)
    exact List.mem_filter.mpr ⟨member, by simpa using hne⟩

theorem own?_defineAll {scope : Scope} {names : List String} {name : String}
    (hunbound : name ∉ names) :
    (scope.defineAll names).table.own? name = scope.table.own? name := by
  induction names with
  | nil => rfl
  | cons first rest ih =>
      obtain ⟨hne, hrest⟩ := not_or.mp (mt List.mem_cons.mpr hunbound)
      change ((scope.defineAll rest).define first).2.table.own? name = _
      rw [Scope.own?_define, if_neg hne, ih hrest]

theorem Emits.own?_unbound {part : Part} {stage finish : Stage} {offset : Nat}
    {code : List Instruction} (emits : Emits part stage offset code finish)
    (valid : stage.scope.Valid) {name : String} (hunbound : name ∉ part.boundIn) :
    finish.scope.table.own? name = stage.scope.table.own? name := by
  obtain ⟨names, literals, hadds, halike, -⟩ := (emits.surveyed valid).adds
  have hnames : part.boundIn = names := by
    rw [Part.boundIn, hadds.bound]
    exact List.append_nil _
  rw [halike.own, own?_defineAll (hnames ▸ hunbound)]

section

variable {stream : Code} {offset : Nat} {written : List Nat}

theorem assigned_quiet {first : Instruction} {rest : List Instruction} (hquiet : first.Quiet)
    (hfits : first.Fits) (holds : stream.Holds offset (first :: rest))
    (hnext : Assigned stream (offset + first.size) written) : Assigned stream offset written := by
  refine .step (holds.fetch hfits) (fun hop => absurd hop hquiet.reads) (fun _ => ?_) ?_
  · rwa [Instruction.stores, if_neg hquiet.stores]
  · intro target htarget
    simp [target?, hquiet.jump] at htarget

theorem assigned_load {symbol : Symbol} {rest : List Instruction} (hfits : symbol.load.Fits)
    (holds : stream.Holds offset (symbol.load :: rest))
    (hread : symbol.place = .localSlot → symbol.index ∈ written)
    (hnext : Assigned stream (offset + symbol.load.size) written) :
    Assigned stream offset written := by
  refine .step (holds.fetch hfits) ?_ ?_ ?_
  · intro hop
    cases hplace : symbol.place <;> simp only [Symbol.load, hplace, reduceCtorEq] at hop ⊢
    exact hread hplace
  · intro _
    have hstores : symbol.load.stores = [] := by
      cases hplace : symbol.place <;> simp [Symbol.load, hplace, Instruction.stores]
    rwa [hstores]
  · intro target htarget
    simp [target?, symbol.isJump_load] at htarget

theorem assigned_loads {symbols : List Symbol} (hfits : ∀ symbol ∈ symbols, symbol.load.Fits)
    (holds : stream.Holds offset (symbols.map Symbol.load))
    (hread : ∀ symbol ∈ symbols, symbol.place = .localSlot → symbol.index ∈ written)
    (hnext : Assigned stream (offset + sizeAll (symbols.map Symbol.load)) written) :
    Assigned stream offset written := by
  induction symbols generalizing offset with
  | nil => simpa using hnext
  | cons symbol rest ih =>
      have hsymbol := hfits symbol (by simp)
      refine assigned_load hsymbol holds (hread symbol (by simp)) ?_
      refine ih (fun symbol member => hfits symbol (by simp [member])) (holds.tail hsymbol)
        (fun symbol member => hread symbol (by simp [member])) ?_
      simpa [Nat.add_assoc] using hnext

end

theorem quiet_op {op : Opcode} {operands : List Nat}
    (hop : op.isJump = false ∧ op ≠ .jump ∧ op ≠ .returnValue ∧ op ≠ .returnNull ∧
      op ≠ .getLocal ∧ op ≠ .setLocal := by decide) : Quiet ⟨op, operands⟩ :=
  ⟨⟨hop.2.1, hop.2.2.1, hop.2.2.2.1⟩, hop.1, hop.2.2.2.2.1, hop.2.2.2.2.2⟩

theorem quiet_unaryOpcode (op : UnaryOp) : Quiet ⟨unaryOpcode op, []⟩ := by
  cases op <;> exact quiet_op

theorem quiet_binaryOpcode {op : BinaryOp} {opcode : Opcode}
    (hopcode : binaryOpcode? op = some opcode) : Quiet ⟨opcode, []⟩ := by
  cases op <;> simp only [binaryOpcode?, Option.some.injEq, reduceCtorEq] at hopcode <;>
    subst hopcode <;> exact quiet_op

theorem own?_of_resolve {scope later : Scope} {name : String} {symbol : Symbol}
    (valid : scope.Valid) (hresolve : scope.resolve name = some (symbol, later))
    (hplace : symbol.place = .localSlot) : scope.table.own? name = some symbol := by
  obtain ⟨hresolved, -, -⟩ := Scope.resolve_valid valid hresolve
  rw [← hresolved.extends.1.own]
  refine Table.own?_eq_some.mpr ⟨(hresolved.lookup valid ?_).2, by simp [hplace]⟩
  rw [hplace]
  rfl

structure InFunction (scope : Scope) : Prop where
  valid : scope.Valid
  charted : ∃ surveys, scope.Charted surveys
  inside : scope.isTopLevel = false

theorem InFunction.emits {part : Part} {stage finish : Stage} {offset : Nat} {code : List Instruction}
    (inside : InFunction stage.scope) (emits : Emits part stage offset code finish) :
    InFunction finish.scope := by
  obtain ⟨hvalid, hcharted⟩ := emits.valid_charted inside.valid inside.charted
  exact ⟨hvalid, hcharted, (emits.valid_inside inside.valid inside.inside).2⟩

/-- What a function literal captures of the locals around it is not in doubt. -/
theorem capture_stored {name : Option String} {parameters : List String} {body : List Stmt}
    {stage inner : Stage} {outer : Scope} {instructions : List Instruction} {doubts : Doubts}
    {written : List Nat} (inside : InFunction stage.scope)
    (hbody : Emits (.body body) ⟨stage.scope.entry name parameters, stage.constants⟩ 0 instructions
      inner)
    (hleave : inner.scope.leave? = some outer)
    (hcertain : ∀ used ∈ (Stmt.surveyAll body (.enter name parameters)).free, used ∉ doubts)
    (covers : Covers outer doubts written) :
    ∀ symbol ∈ inner.scope.table.captures, symbol.place = .localSlot →
      symbol.index ∈ written := by
  intro symbol member hplace
  obtain ⟨surveys, hsurveys⟩ := inside.charted
  obtain ⟨hentry, -, -, -⟩ := entry_valid inside.valid name parameters
  have hcharted := ((hbody.surveyed hentry).charted (hsurveys.entry name parameters)).leave hleave
  have hname : symbol.name ∈ (Stmt.surveyAll body (.enter name parameters)).free := by
    have hmapped := List.mem_map_of_mem (f := Symbol.name) member
    rw [hcharted.1.captures] at hmapped
    exact (List.mem_filter.mp hmapped).1
  refine covers symbol.name symbol ?_ hplace (hcertain symbol.name hname)
  exact Table.own?_eq_some.mpr ⟨hcharted.1.source symbol member, by simp [hplace]⟩

/-- The code leads from a point of a function to a later one, unless it does not come to its end: it
reads only locals that have been stored, if so does what is behind it. -/
def Assigns (stream : Code) (offset : Nat) (code : List Instruction) (scope : Scope)
    (doubts : Doubts) (finish : Scope) (later : Doubts) (ends : Bool) : Prop :=
  ∀ ⦃written : List Nat⦄, Covers scope doubts written →
    (ends = true → ∀ more, (∀ slot ∈ written, slot ∈ more) → Covers finish later more →
      Assigned stream (offset + sizeAll code) more) →
    Assigned stream offset written

section

variable {stream : Code} {offset : Nat} {scope middle finish : Scope}
  {doubts between later : Doubts} {ends : Bool}

theorem Assigns.append {first second : List Instruction} {firstEnds : Bool}
    (hfirst : Assigns stream offset first scope doubts middle between firstEnds)
    (hsecond : Assigns stream (offset + sizeAll first) second middle between finish later ends) :
    Assigns stream offset (first ++ second) scope doubts finish later ends := by
  intro written covers hnext
  refine hfirst covers fun _ more hmore hcovers => ?_
  refine hsecond hcovers fun hends more' hmore' hcovers' => ?_
  have hlast := hnext hends more' (fun slot member => hmore' slot (hmore slot member)) hcovers'
  rwa [sizeAll_append, ← Nat.add_assoc] at hlast

theorem assigns_nil : Assigns stream offset [] scope doubts scope doubts true :=
  fun _ covers hnext => hnext rfl _ (fun _ => id) covers

theorem assigns_quiet {instruction : Instruction} (hquiet : instruction.Quiet)
    (hfits : instruction.Fits) (holds : stream.Holds offset [instruction])
    (hown : ∀ name, finish.table.own? name = scope.table.own? name) :
    Assigns stream offset [instruction] scope doubts finish doubts true := by
  intro written covers hnext
  refine assigned_quiet hquiet hfits holds ?_
  simpa using hnext rfl written (fun _ => id) (covers.same hown)

theorem Assigns.snoc {code : List Instruction} {last : Instruction}
    (hcode : Assigns stream offset code scope doubts finish later true) (hquiet : last.Quiet)
    (hfits : ∀ instruction ∈ code ++ [last], instruction.Fits)
    (holds : stream.Holds offset (code ++ [last])) :
    Assigns stream offset (code ++ [last]) scope doubts finish later true := by
  refine hcode.append (assigns_quiet hquiet (hfits last (by simp)) (holds.right ?_) fun _ => rfl)
  exact fun instruction member => hfits instruction (by simp [member])

theorem assigns_return {last : Instruction}
    (hop : last.op = .returnValue ∨ last.op = .returnNull) (hfits : last.Fits)
    (holds : stream.Holds offset [last]) :
    Assigns stream offset [last] scope doubts finish later ends :=
  fun _ _ _ => assigned_return (holds.fetch hfits) hop

theorem Assigns.snocReturn {code : List Instruction} {last : Instruction}
    (hcode : Assigns stream offset code scope doubts middle between true)
    (hop : last.op = .returnValue ∨ last.op = .returnNull)
    (hfits : ∀ instruction ∈ code ++ [last], instruction.Fits)
    (holds : stream.Holds offset (code ++ [last])) :
    Assigns stream offset (code ++ [last]) scope doubts finish later ends := by
  refine hcode.append (assigns_return hop (hfits last (by simp)) (holds.right ?_))
  exact fun instruction member => hfits instruction (by simp [member])

theorem assigns_store {name : String} (hinside : scope.isTopLevel = false)
    (hfits : (scope.define name).1.store.Fits)
    (holds : stream.Holds offset [(scope.define name).1.store]) :
    Assigns stream offset [(scope.define name).1.store] scope doubts (scope.define name).2
      (doubts.filter (· != name)) true := by
  intro written covers hnext
  rw [store_inside hinside] at hfits holds hnext
  refine .step (holds.fetch hfits) (by simp) (fun _ => ?_)
    (by simp [Instruction.target?, Opcode.isJump])
  have hlast := hnext rfl (scope.table.definitions :: written)
    (fun _ => List.mem_cons_of_mem _) (covers.define name)
  change Assigned stream _ (scope.table.definitions :: written)
  simpa using hlast

/-- Whichever branch is taken, what was stored before the choice is stored behind it, and what the
branches bind is in doubt. -/
theorem Assigns.choose {second : Scope} {consequent alternate : Doubts} {bound others : List String}
    {toAlternative toEnd : Nat} {conditionCode consequenceCode alternativeCode : List Instruction}
    (hcondition : Assigns stream offset conditionCode scope doubts middle between true)
    (hconditionFits : ∀ instruction ∈ conditionCode, instruction.Fits)
    (hconsequence : Assigns stream (offset + sizeAll conditionCode + 3) consequenceCode middle
      between second consequent true)
    (hconsequenceFits : ∀ instruction ∈ consequenceCode, instruction.Fits)
    (hto : toAlternative = offset + sizeAll conditionCode + 3 + sizeAll consequenceCode + 3)
    (halternative : Assigns stream toAlternative alternativeCode second (bound ++ between) finish
      alternate true)
    (hend : toEnd = toAlternative + sizeAll alternativeCode)
    (hfirst : Fits ⟨.jumpNotTruthy, [toAlternative]⟩) (hsecond : Fits ⟨.jump, [toEnd]⟩)
    (hbound : ∀ name, name ∉ bound → second.table.own? name = middle.table.own? name)
    (hothers : ∀ name, name ∉ others → finish.table.own? name = second.table.own? name)
    (holds : stream.Holds offset (conditionCode ++ ⟨.jumpNotTruthy, [toAlternative]⟩ ::
      (consequenceCode ++ ⟨.jump, [toEnd]⟩ :: alternativeCode))) :
    Assigns stream offset (conditionCode ++ ⟨.jumpNotTruthy, [toAlternative]⟩ ::
      (consequenceCode ++ ⟨.jump, [toEnd]⟩ :: alternativeCode)) scope doubts finish
      (others ++ (bound ++ between)) true := by
  have hafter := holds.right hconditionFits
  have hjump := (hafter.tail hfirst).right hconsequenceFits
  intro written covers hnext
  refine hcondition covers fun _ more hmore hcovers => ?_
  have hready : ∀ more', (∀ slot ∈ more, slot ∈ more') → Assigned stream toEnd more' := by
    intro more' hmore'
    have hlast := hnext rfl more' (fun slot member => hmore' slot (hmore slot member))
      ((hcovers.doubt bound hbound hmore').doubt others hothers fun _ => id)
    rwa [choice_end hto hend] at hlast
  refine .step (hafter.fetch hfirst) (by simp) (fun _ => ?_) ?_
  · refine hconsequence hcovers fun _ more' hmore' _ => ?_
    refine .step (hjump.fetch hsecond) (by simp) (fun hfalls => absurd rfl hfalls.1) ?_
    rintro target ⟨⟩
    exact hready more' hmore'
  · rintro target ⟨⟩
    refine halternative (hcovers.doubt bound hbound fun _ => id) fun _ more' hmore' _ => ?_
    rw [← hend]
    exact hready more' hmore'

end

theorem assigns_function {name : Option String} {parameters : List String} {body : List Stmt}
    {stage inner : Stage} {outer : Scope} {instructions : List Instruction} {stream : Code}
    {offset index count : Nat} {doubts : Doubts} (inside : InFunction stage.scope)
    (hbody : Emits (.body body) ⟨stage.scope.entry name parameters, stage.constants⟩ 0 instructions
      inner)
    (hleave : inner.scope.leave? = some outer)
    (hcertain : ∀ used ∈ (Stmt.surveyAll body (.enter name parameters)).free, used ∉ doubts)
    (hloads : ∀ symbol ∈ inner.scope.table.captures, symbol.load.Fits)
    (hfits : Fits ⟨.closure, [index, count]⟩)
    (holds : stream.Holds offset
      (inner.scope.table.captures.map Symbol.load ++ [⟨.closure, [index, count]⟩])) :
    Assigns stream offset
      (inner.scope.table.captures.map Symbol.load ++ [⟨.closure, [index, count]⟩]) stage.scope
      doubts outer doubts true := by
  obtain ⟨hentry, houter, -, -⟩ := entry_valid inside.valid name parameters
  have hown := (extends_leave houter (hbody.valid hentry).2 hleave).1.own
  have hlast := holds.right (List.forall_mem_map.mpr hloads)
  intro written covers hnext
  have hstored := capture_stored inside hbody hleave hcertain (covers.same hown)
  refine assigned_loads hloads holds.left hstored (assigned_quiet quiet_op hfits hlast ?_)
  have hready := hnext rfl written (fun _ => id) (covers.same hown)
  rwa [sizeAll_append, ← Nat.add_assoc] at hready

theorem Emits.assigns {part : Part} {stage finish : Stage} {offset : Nat}
    {code : List Instruction} (emits : Emits part stage offset code finish)
    (inside : InFunction stage.scope) {stream : Code} (holds : stream.Holds offset code)
    {doubts later : Doubts} (hsettle : part.settle doubts = some later) :
    Assigns stream offset code stage.scope doubts finish.scope later part.ends := by
  -- Names are in doubt from a choice on, and until a `let` outside it binds them again.
  induction emits generalizing doubts later with
  | @literal expr constant _ _ hconstant hfits =>
      obtain rfl : doubts = later := by
        cases expr <;> simp only [Expr.constant?, reduceCtorEq] at hconstant <;>
          simpa [Part.settle, Expr.settle] using hsettle
      exact assigns_quiet quiet_op hfits holds fun _ => rfl
  | @boolean value =>
      obtain rfl : doubts = later := by simpa [Part.settle, Expr.settle] using hsettle
      cases value <;>
        exact assigns_quiet quiet_op (fits_nil rfl) holds
          fun _ => rfl
  | @ident name _ _ symbol scope hresolve hfits =>
      simp only [Part.settle, Expr.settle] at hsettle
      split at hsettle
      next => cases hsettle
      next hcertain =>
        cases hsettle
        intro written covers hnext
        refine assigned_load hfits holds ?_ ?_
        · exact fun hplace =>
            covers name symbol (own?_of_resolve inside.valid hresolve hplace) hplace hcertain
        · have hown := (Scope.resolve_valid inside.valid hresolve).1.extends.1.own
          simpa using hnext rfl written (fun _ => id) (covers.same hown)
  | unary hoperand ih =>
      exact (ih inside holds.left hsettle).snoc (quiet_unaryOpcode _) (Emits.unary hoperand).fits holds
  | binary hopcode hleft hright ihleft ihright =>
      rw [Part.settle, settle_binary hopcode] at hsettle
      obtain ⟨between, hfirst, hsecond⟩ := Option.bind_eq_some_iff.mp hsettle
      exact ((ihleft inside holds.left.left hfirst).append (ihright (inside.emits hleft)
        (holds.left.right hleft.fits) hsecond)).snoc (quiet_binaryOpcode hopcode)
        (Emits.binary hopcode hleft hright).fits holds
  | less hright hleft ihright ihleft =>
      obtain ⟨between, hfirst, hsecond⟩ := Option.bind_eq_some_iff.mp hsettle
      exact ((ihright inside holds.left.left hfirst).append (ihleft (inside.emits hright)
        (holds.left.right hright.fits) hsecond)).snoc quiet_op
        (Emits.less hright hleft).fits holds
  | index hcontainer hindex ihcontainer ihindex =>
      obtain ⟨between, hfirst, hsecond⟩ := Option.bind_eq_some_iff.mp hsettle
      exact ((ihcontainer inside holds.left.left hfirst).append (ihindex (inside.emits hcontainer)
        (holds.left.right hcontainer.fits) hsecond)).snoc
        quiet_op (Emits.index hcontainer hindex).fits holds
  | call hcallee harguments hfits ihcallee iharguments =>
      obtain ⟨between, hfirst, hsecond⟩ := Option.bind_eq_some_iff.mp hsettle
      exact ((ihcallee inside holds.left.left hfirst).append (iharguments (inside.emits hcallee)
        (holds.left.right hcallee.fits) hsecond)).snoc
        quiet_op (Emits.call hcallee harguments hfits).fits holds
  | array hitems hfits ih =>
      exact (ih inside holds.left hsettle).snoc quiet_op
        (Emits.array hitems hfits).fits holds
  | hash hpairs hfits ih =>
      rw [Part.settle, settle_hash] at hsettle
      exact (ih inside holds.left hsettle).snoc quiet_op
        (Emits.hash hpairs hfits).fits holds
  | cond hcondition hconsequence hto halternative hend hfirst hsecond ihcondition ihconsequence
      ihalternative =>
      obtain ⟨between, hcertain, hconsequent, halternate, rfl⟩ := settle_cond hsettle
      obtain ⟨_, hconsequent⟩ := Option.isSome_iff_exists.mp hconsequent
      obtain ⟨_, halternate⟩ := Option.isSome_iff_exists.mp halternate
      have hinside := inside.emits hcondition
      have hinside' := hinside.emits hconsequence
      have hafter := holds.right hcondition.fits
      have hbranch := hafter.tail hfirst
      have helse := (hbranch.right hconsequence.fits).tail hsecond
      exact Assigns.choose (ihcondition inside holds.left hcertain) hcondition.fits
        (ihconsequence hinside hbranch.left hconsequent) hconsequence.fits hto
        (ihalternative hinside' (hto ▸ helse) halternate) hend hfirst hsecond
        (fun _ => hconsequence.own?_unbound hinside.valid)
        (fun _ => halternative.own?_unbound hinside'.valid) holds
  | function _ hbody hleave _ hloads hfits =>
      simp only [Part.settle, Expr.settle] at hsettle
      split at hsettle
      next => cases hsettle
      next hcertain =>
        cases hsettle
        exact assigns_function inside hbody hleave
          (fun used member hdoubt => hcertain ⟨used, member, hdoubt⟩) hloads hfits holds
  | noAlternative | emptyBranch =>
      obtain rfl : doubts = later := Option.some.inj hsettle
      exact assigns_quiet quiet_op (fits_nil rfl) holds
        fun _ => rfl
  | alternative _ ih => exact ih inside holds hsettle
  | noExprs | noPairs | noStmts =>
      obtain rfl : doubts = later := Option.some.inj hsettle
      exact assigns_nil
  | exprs hfirst _ ihfirst ihrest | stmts hfirst _ ihfirst ihrest
  | branchStmt _ hfirst _ ihfirst ihrest | bodyStmt _ hfirst _ ihfirst ihrest =>
      obtain ⟨between, hsettle', hrest⟩ := Option.bind_eq_some_iff.mp hsettle
      exact (ihfirst inside holds.left hsettle').append
        (ihrest (inside.emits hfirst) (holds.right hfirst.fits) hrest)
  | pairs hkey hvalue _ ihkey ihvalue ihrest =>
      simp only [Part.settle, List.foldlM_cons] at hsettle
      obtain ⟨second, hpair, hrest⟩ := Option.bind_eq_some_iff.mp hsettle
      obtain ⟨first, hfirst, hsecond⟩ := Option.bind_eq_some_iff.mp hpair
      have hinside := inside.emits hkey
      refine ((ihkey inside holds.left.left hfirst).append
        (ihvalue hinside (holds.left.right hkey.fits) hsecond)).append ?_
      have hholds := holds.right (List.forall_mem_append.mpr ⟨hkey.fits, hvalue.fits⟩)
      rw [sizeAll_append, ← Nat.add_assoc] at hholds ⊢
      exact ihrest (hinside.emits hvalue) hholds hrest
  | exprStmt hvalue ih =>
      exact (ih inside holds.left hsettle).snoc quiet_op
        (Emits.exprStmt hvalue).fits holds
  | bind hvalue hfits ih =>
      obtain ⟨between, hvalueSettle, rfl⟩ := Option.map_eq_some_iff.mp hsettle
      exact (ih inside holds.left hvalueSettle).append
        (assigns_store (inside.emits hvalue).inside hfits (holds.right hvalue.fits))
  | ret hinside hvalue ih =>
      exact (ih inside holds.left hsettle).snocReturn (.inl rfl) (Emits.ret hinside hvalue).fits holds
  | branchValue _ ih =>
      rw [Part.settle, settleAll_single] at hsettle
      exact ih inside holds hsettle
  | emptyBody => exact assigns_return (.inr rfl) (fits_nil rfl) holds
  | bodyValue hvalue ih =>
      rw [Part.settle, settleAll_single] at hsettle
      exact (ih inside holds.left hsettle).snocReturn (.inl rfl) (Emits.bodyValue hvalue).fits holds
  | bodyReturn _ ih =>
      rw [Part.settle, settleAll_single] at hsettle
      exact ih inside holds hsettle

theorem MadeOf.settled {globals : Nat} {lambda : Lambda} {template : Template}
    (made : MadeOf globals lambda template) (hsettled : lambda.Settled) : template.Settled := by
  obtain ⟨hparameters, scope, constants, instructions, inner, hvalid, ⟨surveys, hsurveys⟩, hbody,
    hcode, -⟩ := made
  obtain ⟨hentry, houter, hdefinitions, -⟩ := entry_valid hvalid lambda.name lambda.parameters
  obtain ⟨later, hlater⟩ := Option.isSome_iff_exists.mp hsettled
  have hinside : InFunction (scope.entry lambda.name lambda.parameters) :=
    ⟨hentry, ⟨_, hsurveys.entry lambda.name lambda.parameters⟩, by simp [Scope.isTopLevel, houter]⟩
  refine hbody.assigns hinside (Code.holds_all hcode) hlater ?_ (by simp [Part.ends])
  intro name symbol hname hplace _
  have hindex := (hentry.valid name symbol (Table.own?_eq_some.mp hname).1).2.2
  simp only [hplace] at hindex
  rw [List.mem_range, hparameters, ← hdefinitions]
  exact hindex

end Compile

theorem Ready.assigned {constants : Array Constant} {shape : Shape} {ip height : Nat}
    (ready : Ready constants shape ip height) (hlocals : shape.locals = 0) (written : List Nat) :
    Assigned shape.code ip written := by
  induction ready generalizing written with
  | done _ hend =>
      rw [hend]
      exact .stop (by simp [Code.fetch?])
  | @next _ _ _ instruction hfetch _ hallowed _ _ _ _ ihtarget ihnext =>
      refine .step hfetch ?_ (fun _ => ihnext hlocals _) fun target htarget =>
        ihtarget target htarget hlocals written
      intro hop
      simp only [Shape.Allows, hop, hlocals] at hallowed
      exact absurd hallowed (Nat.not_lt_zero _)
  | jump hfetch _ ih =>
      refine .step hfetch (by simp) (fun hfalls => absurd rfl hfalls.1) ?_
      rintro target ⟨⟩
      exact ih hlocals written
  | leave _ hfetch hop => exact assigned_return hfetch hop

end Stacklang

import Stacklang.Proofs.Compile.Calls
import Stacklang.Proofs.Compile.Success

namespace Stacklang

open Machine Compile Fallible Instruction

/-- The limits leave room for so many values, calls and steps, and for every global that there are
instructions for. -/
structure Config.Allows (config : Config) (amount : Nat) : Prop where
  stack : amount ≤ config.stackSize
  frames : amount ≤ config.maxFrames
  steps : ∀ limit, config.maxSteps = some limit → amount ≤ limit
  globals : maxGlobals ≤ config.globalsSize

/-- Running what has been compiled comes to the given result of an evaluation: the run finishes with
its value popped last, or fails with its fault, and the globals, what has been printed and what has
been allocated are the same. An evaluation of what has been compiled never returns from the top level
and finds a meaning for every name. -/
def Compiler.Reproduces (compiler : Compiler) (config : Config) (fuel : Nat) (world : World) :
    Except Exit Datum × Situation → Prop
  | (.ok value, situation) => ∃ machine,
      Machine.run fuel (start compiler.bytecode 0 #[] config world) = (.finished, machine) ∧
      value.Related (link compiler.constants) machine.lastPopped ∧
      compiler.scope.Numbered situation.names ∧
      GlobalsAgree compiler.constants situation.globals machine.globals ∧
      machine.world = situation.world
  | (.error (.fault fault), situation) => ∃ error machine,
      Machine.run fuel (start compiler.bytecode 0 #[] config world) = (.failed error, machine) ∧
      error.fault = fault ∧
      GlobalsAgree compiler.constants situation.globals machine.globals ∧
      machine.world = situation.world
  | (.error (.returned _), _) | (.error .undefined, _) => False
  | (.error .unset, _) | (.error .unfinished, _) => True

namespace Program

theorem numbered_withBuiltins : Scope.withBuiltins.Numbered [] := by
  have hall : ∀ entry ∈ Scope.withBuiltins.table.bindings, entry.2.place = .builtin ∧
      (Builtin.all.find? (·.name == entry.1)).isSome = true ∧
      Builtin.all[entry.2.index]? = Builtin.all.find? (·.name == entry.1) := by
    decide +kernel
  intro name symbol hsymbol
  obtain ⟨before, after, hbindings, -⟩ :=
    List.lookup_eq_some_iff.mp (Table.own?_eq_some.mp hsymbol).1
  obtain ⟨hplace, hknown, hindex⟩ := hall (name, symbol) (by
    rw [show Scope.withBuiltins.table.bindings = _ from hbindings]
    simp)
  obtain ⟨builtin, hbuiltin⟩ := Option.isSome_iff_exists.mp hknown
  exact .inr ⟨hplace, rfl, builtin, hindex.trans hbuiltin, hbuiltin⟩

theorem agrees_start (bytecode : Bytecode) (config : Config) (world : World) :
    Agrees bytecode.constants ⟨[], 0, 0⟩ ⟨.withBuiltins, #[]⟩ (.start world)
      (start bytecode 0 #[] config world) [] [] [] := by
  refine ⟨rfl, rfl, ⟨rfl, rfl⟩, rfl, rfl, rfl, ?_, rfl, numbered_withBuiltins, ?_,
    Scope.withBuiltins_valid.2, ?_⟩
  · simp [Scope.withBuiltins_valid.2]
  · intro index
    simp only [start, extendGlobals, Situation.start]
    rcases Nat.lt_or_ge index config.globalsSize with hless | hmore
    · simpa [hless] using Value.Related.null
    · simpa [Nat.not_lt.mpr hmore] using Value.Related.null
  · have hnone : Scope.withBuiltins.table.definitions = 0 := by decide +kernel
    exact hnone.symm

theorem room_start {config : Config} {bound : Nat} (allows : config.Allows (bound + 1))
    (bytecode : Bytecode) (world : World) :
    (start bytecode 0 #[] config world).Room bound := by
  have hstack := allows.stack
  refine ⟨?_, ?_, fun limit hlimit => ?_, ?_⟩
  · simp only [start, Array.size_replicate]
    omega
  · have hframes := allows.frames
    change 1 + bound ≤ config.maxFrames
    omega
  · have hsteps := allows.steps limit hlimit
    change 0 + bound ≤ limit
    omega
  · simp only [start, extendGlobals, Array.size_append, Array.size_replicate]
    exact Nat.le_trans allows.globals (Nat.le_of_eq (by simp))

/-- Whatever a program evaluates to, calls however deep inside each other, its bytecode comes to it in
every machine with large enough limits. -/
theorem bytecode_reproduces_evaluation {program : Program} {compiler : Compiler}
    (hadd : Compiler.fresh.add program = (.ok (), compiler)) (depth : Nat) (world : World) :
    ∃ enough, ∀ config fuel, config.Allows enough → enough ≤ fuel →
      compiler.Reproduces config fuel world (program.evaluate depth world) := by
  obtain ⟨valid, htop⟩ := Scope.withBuiltins_valid
  obtain ⟨code, hemits, hcode⟩ := Compiler.add_succeeds valid htop hadd
  have houses : Houses compiler.constants ⟨[], 0, 0⟩ ⟨compiler.scope, compiler.constants⟩ := by
    obtain ⟨hvalid, hgrows⟩ := hemits.valid valid
    have hfinish : compiler.scope.isTopLevel = true := hgrows.isTopLevel.trans htop
    refine ⟨.refl _, ?_, ?_⟩
    · simp [hfinish]
    · rw [Scope.Valid, List.isEmpty_iff.mp hfinish] at hvalid
      rw [hvalid.2]
      exact List.prefix_rfl
  have hsimulates : Simulates compiler.constants ⟨[], 0, 0⟩ ⟨[], some .null⟩
      (Evaluate.topLevel (Evaluate.apply depth) .null program.statements)
      (fun value => ⟨[], some value⟩) ⟨.withBuiltins, #[]⟩ 0 code
      ⟨compiler.scope, compiler.constants⟩ :=
    hemits.simulates (apply_simulates _ depth) ⟨valid, [], trivial, by simp⟩ houses .null
  obtain ⟨bound, hleads⟩ := hsimulates (.start world)
  refine ⟨bound + 1, fun config fuel allows hfuel => ?_⟩
  have hdone := hleads _ [] [] [] [] (agrees_start compiler.bytecode config world) ?_ rfl
    (Code.holds_all hcode) (room_start allows _ world)
  · rw [evaluate]
    generalize (Evaluate.topLevel (Evaluate.apply depth) .null program.statements).run
      (.start world) = result at hdone ⊢
    obtain ⟨outcome, situation⟩ := result
    cases outcome with
    | ok value =>
        obtain ⟨machine, hreaches, hnear, -, slots, values, hip, agrees, htop⟩ := hdone
        refine ⟨machine, hreaches.finishes ?_ hnear.callers hfuel, htop.2 value rfl,
          agrees.situated.numbered, agrees.situated.globals, agrees.world⟩
        have hsize : compiler.bytecode.code.size = sizeAll code := by
          rw [← Array.length_toList, ← length_encodeAll hemits.fits, ← hcode]
          rfl
        rw [Near.code hnear, hip, Nat.zero_add, ← hsize]
        simp [Code.fetch?, start]
    | error exit =>
        cases exit with
        | returned value =>
            obtain ⟨machine, -, hreturns⟩ := hdone
            cases hreturns.callers
        | fault fault =>
            obtain ⟨error, machine, hfails, hfault, hworld, hglobals⟩ := hdone
            exact ⟨error, machine, hfails.run (Nat.le_of_succ_le hfuel), hfault, hglobals, hworld⟩
        | undefined => cases hdone
        | unset => trivial
        | unfinished => trivial
  · refine ⟨.nil, ?_⟩
    rintro _ ⟨⟩
    rw [lastPopped, start, Array.getD_eq_getD_getElem?]
    rcases Nat.lt_or_ge 0 config.stackSize with hless | hmore
    · simpa [hless] using Value.Related.null
    · simpa [Nat.not_lt.mpr hmore] using Value.Related.null

/-- Defines the factorial by recursion and calls it where the result is too large: what has wrapped
around is negative, and dividing it does not come out even. -/
def factorial : Program :=
  ⟨[.bind "factorial" (.function (some "factorial") ["n"]
      [.expr (.cond (.binary .less (.ident "n") (.integer 2)) [.ret (.integer 1)] none),
        .expr (.binary .mul (.ident "n")
          (.call (.ident "factorial") [.binary .sub (.ident "n") (.integer 1)]))]),
    .expr (.binary .add
      (.binary .div (.call (.ident "factorial") [.integer 21]) (.integer 10)) (.integer 3))]⟩

theorem bytecode_reproduces_factorial :
    ∃ enough, ∀ config fuel, config.Allows enough → enough ≤ fuel → ∃ machine,
      Machine.run fuel (start (Compiler.fresh.add factorial).2.bytecode 0 #[] config .fresh) =
        (.finished, machine) ∧ machine.lastPopped.display = "-424929004941921481" := by
  have hadd : (Compiler.fresh.add factorial).1 = .ok () := by decide +kernel
  have hvalue : (factorial.evaluate 24 .fresh).1.toOption.map Value.display =
      some "-424929004941921481" := by
    decide +kernel
  cases hcompiled : Compiler.fresh.add factorial with
  | mk compiled compiler =>
      rw [hcompiled] at hadd
      obtain rfl : compiled = .ok () := hadd
      obtain ⟨enough, hreproduces⟩ := bytecode_reproduces_evaluation hcompiled 24 .fresh
      generalize factorial.evaluate 24 .fresh = result at hvalue hreproduces
      obtain ⟨outcome, situation⟩ := result
      cases outcome with
      | error exit => cases hvalue
      | ok value =>
          refine ⟨enough, fun config fuel allows hfuel => ?_⟩
          obtain ⟨machine, hrun, hrelated, -⟩ := hreproduces config fuel allows hfuel
          refine ⟨machine, hrun, ?_⟩
          rw [← Value.Related.display value hrelated]
          exact Option.some.inj hvalue

end Program

end Stacklang

import Mathlib.Tactic.Ring
import Stacklang.Proofs.Compile.Forward
import Stacklang.Proofs.Machine.Everywhere
import Stacklang.Proofs.Machine.Moves
import Stacklang.Proofs.Machine.Verified

namespace Stacklang

def Constant.bytes : Constant → Nat
  | .function template => template.code.size
  | .integer _ | .string _ => 0

def Bytecode.longest (bytecode : Bytecode) : Nat :=
  (bytecode.constants.toList.map Constant.bytes).foldr max bytecode.code.size

/-- A bound on the instructions that are executed with so many calls in progress at most. -/
def Bytecode.stepBound (bytecode : Bytecode) (maxFrames : Nat) : Nat :=
  bytecode.code.size * (bytecode.longest + 1) ^ maxFrames

theorem le_foldr_max (first : Nat) (sizes : List Nat) :
    first ≤ sizes.foldr max first ∧ ∀ size ∈ sizes, size ≤ sizes.foldr max first := by
  induction sizes with
  | nil => simp
  | cons size rest ih =>
      simp only [List.foldr_cons, List.forall_mem_cons]
      refine ⟨Nat.le_trans ih.1 (Nat.le_max_right _ _), Nat.le_max_left _ _, ?_⟩
      exact fun other member => Nat.le_trans (ih.2 other member) (Nat.le_max_right _ _)

theorem Bytecode.le_longest (bytecode : Bytecode) :
    bytecode.code.size ≤ bytecode.longest ∧
      ∀ template, .function template ∈ bytecode.constants →
        template.code.size ≤ bytecode.longest := by
  obtain ⟨hmain, hfunctions⟩ := le_foldr_max bytecode.code.size
    (bytecode.constants.toList.map Constant.bytes)
  refine ⟨hmain, fun template member => hfunctions _ ?_⟩
  exact List.mem_map.mpr ⟨.function template, Array.mem_toList_iff.mpr member, rfl⟩

structure Template.Finite (longest : Nat) (template : Template) : Prop where
  forward : template.code.Forward
  size : template.code.size ≤ longest

theorem Code.fetch?_inside {code : Code} {offset : Nat} {instruction : Instruction}
    (hfetch : code.fetch? offset = some (.ok instruction)) : offset < code.size := by
  refine Nat.lt_of_not_le fun houtside => ?_
  simp [Code.fetch?, Nat.not_lt.mpr houtside] at hfetch

namespace Machine

open Fallible Instruction

/-- What is left to be done by some calls, if none of them has more than `longest` bytes of code: each
byte stands for one instruction and a whole call inside. -/
def remaining (longest maxFrames : Nat) : List Frame → Nat
  | [] => 0
  | frame :: callers =>
      (frame.template.code.size - frame.ip) * (longest + 1) ^ (maxFrames - callers.length) +
        remaining longest maxFrames callers

/-- A call that goes on has less to do by the work of a whole call inside, and one instruction. -/
theorem remaining_goto (longest maxFrames : Nat) {frame : Frame} (callers : List Frame) {ip : Nat}
    (hforward : frame.ip < ip) (hinside : frame.ip < frame.template.code.size) :
    remaining longest maxFrames ({ frame with ip } :: callers) +
        (longest + 1) ^ (maxFrames - callers.length) ≤
      remaining longest maxFrames (frame :: callers) := by
  have hless : frame.template.code.size - ip + 1 ≤ frame.template.code.size - frame.ip := by omega
  have hscaled := Nat.mul_le_mul_right ((longest + 1) ^ (maxFrames - callers.length)) hless
  rw [Nat.add_mul, Nat.one_mul] at hscaled
  simp only [remaining]
  omega

theorem remaining_goto_lt (longest maxFrames : Nat) {frame : Frame} (callers : List Frame) {ip : Nat}
    (hforward : frame.ip < ip) (hinside : frame.ip < frame.template.code.size) :
    remaining longest maxFrames ({ frame with ip } :: callers) <
      remaining longest maxFrames (frame :: callers) :=
  Nat.lt_of_lt_of_le (Nat.lt_add_of_pos_right (Nat.pow_pos (Nat.succ_pos _)))
    (remaining_goto longest maxFrames callers hforward hinside)

theorem remaining_enter {longest maxFrames : Nat} {frame caller : Frame} {callers : List Frame}
    (hsize : frame.template.code.size ≤ longest) (hframes : callers.length + 1 < maxFrames) :
    remaining longest maxFrames (frame :: caller :: callers) <
      remaining longest maxFrames (caller :: callers) +
        (longest + 1) ^ (maxFrames - callers.length) := by
  have hexponent : maxFrames - callers.length = maxFrames - (callers.length + 1) + 1 := by omega
  have hpositive : 0 < (longest + 1) ^ (maxFrames - (callers.length + 1)) :=
    Nat.pow_pos (Nat.succ_pos _)
  have hscaled : (frame.template.code.size - frame.ip) *
      (longest + 1) ^ (maxFrames - (callers.length + 1)) ≤
        longest * (longest + 1) ^ (maxFrames - (callers.length + 1)) :=
    Nat.mul_le_mul_right _ (by omega)
  have hpower : (longest + 1) ^ (maxFrames - callers.length) =
      longest * (longest + 1) ^ (maxFrames - (callers.length + 1)) +
        (longest + 1) ^ (maxFrames - (callers.length + 1)) := by
    rw [hexponent, Nat.pow_succ]
    ring
  rw [remaining, List.length_cons, hpower]
  omega

theorem Moves.remaining_lt {longest : Nat} {machine after : Machine} {instruction : Instruction}
    (moves : Moves (machine.advance instruction) instruction after)
    (hfetch : machine.frame.template.code.fetch? machine.frame.ip = some (.ok instruction))
    (hforward : ∀ target, instruction.target? = some target → machine.frame.ip < target)
    (hsize : after.frame.template.code.size ≤ longest) :
    remaining longest machine.config.maxFrames after.frames <
      remaining longest machine.config.maxFrames machine.frames := by
  have hinside := Code.fetch?_inside hfetch
  have hgoto : ∀ {ip}, machine.frame.ip < ip →
      remaining longest machine.config.maxFrames ({ machine.frame with ip } :: machine.callers) <
        remaining longest machine.config.maxFrames machine.frames :=
    fun hless => remaining_goto_lt longest _ machine.callers hless hinside
  have hpast : machine.frame.ip < machine.frame.ip + instruction.size :=
    Nat.lt_add_of_pos_right instruction.size_pos
  cases moves with
  | pushes | drops | storesGlobal | storesLocal => exact hgoto hpast
  | jumps htarget => exact hgoto (hforward _ htarget)
  | enters _ _ _ _ hframes =>
      exact Nat.lt_of_lt_of_le (remaining_enter hsize hframes)
        (remaining_goto longest machine.config.maxFrames machine.callers hpast hinside)
  | @leaves _ caller callers _ hcallers =>
      have hwaiting : machine.callers = caller :: callers := hcallers
      calc remaining longest machine.config.maxFrames (caller :: callers)
        _ = remaining longest machine.config.maxFrames machine.callers := by rw [hwaiting]
        _ ≤ remaining longest machine.config.maxFrames
              ({ machine.frame with ip := machine.frame.ip + instruction.size } ::
                machine.callers) := Nat.le_add_left _ _
        _ < remaining longest machine.config.maxFrames machine.frames := hgoto hpast

/-- The invariant of machines that halt: they run accepted bytecode whose streams never go back. -/
structure Halting (longest : Nat) (machine : Machine) : Prop where
  verified : machine.Verified
  finite : machine.Everywhere (Template.Finite longest)

/-- With every step there is less to be done. An instruction that stops the run is counted only if
there was something to be done. -/
theorem Halting.step {longest : Nat} {machine : Machine} (halting : machine.Halting longest) :
    Meets Machine.step machine
      (fun more after => (more = false → after = machine) ∧ (more = true →
        after.Halting longest ∧ after.config = machine.config ∧
          after.steps = machine.steps + 1 ∧
          remaining longest machine.config.maxFrames after.frames <
            remaining longest machine.config.maxFrames machine.frames))
      (fun stop after => stop ≠ .crash ∧
        after.steps ≤ machine.steps + remaining longest machine.config.maxFrames machine.frames) := by
  refine (halting.verified.step.and (halting.finite.step.and (step_makes machine))).mono ?_ ?_
  · rintro more after ⟨hverified, hfinite, hsame, hmoves⟩
    refine ⟨hsame, fun hmore => ?_⟩
    obtain ⟨instruction, hfetch, hmoves⟩ := hmoves hmore
    refine ⟨⟨hverified, hfinite⟩, hmoves.config, hmoves.steps, hmoves.remaining_lt hfetch ?_ ?_⟩
    · -- The instruction is one of the stream's, so its jumps go forward.
      obtain ⟨hproper, hboundary, -⟩ := halting.verified.frames machine.frame List.mem_cons_self
      have hforward := (halting.finite.calls _ List.mem_cons_self).forward
      exact hforward _ (hboundary.mem_scan hproper.stream.whole hfetch)
    · exact (hfinite.calls _ List.mem_cons_self).size
  · rintro stop after ⟨⟨hmalformed, -⟩, -, hrests⟩
    constructor
    · rintro rfl
      cases hmalformed
    rcases hrests with hrests | ⟨instruction, hfetch, hrests⟩
    · rw [hrests.steps]
      exact Nat.le_add_right _ _
    · have hwork := remaining_goto_lt longest machine.config.maxFrames machine.callers
        (Nat.lt_add_of_pos_right instruction.size_pos) (Code.fetch?_inside hfetch)
      rw [hrests.steps]
      exact Nat.add_le_add_left (Nat.lt_of_le_of_lt (Nat.zero_le _) hwork) _

theorem Halting.runFor {longest bound : Nat} {machine : Machine} (halting : machine.Halting longest)
    (hbound : remaining longest machine.config.maxFrames machine.frames ≤ bound) :
    ∃ outcome after, (outcome = .finished ∨ ∃ error, outcome = .failed error) ∧
      after.steps ≤ machine.steps + bound ∧
      ∀ fuel, bound < fuel → Machine.runFor fuel machine = (outcome, after) := by
  -- The bound is on what remains to be done: a step that does not end the run leaves less.
  induction bound using Nat.strongRecOn generalizing machine with
  | ind bound ih =>
      have hmeets := halting.step
      have hfuel : ∀ fuel, bound < fuel → ∃ less, fuel = less + 1 ∧ bound ≤ less :=
        fun fuel hless => ⟨fuel - 1, by omega, by omega⟩
      unfold Meets at hmeets
      cases hrun : Machine.step.run machine with
      | mk result after =>
          rw [hrun] at hmeets
          cases result with
          | error stop =>
              obtain ⟨hcrash, hsteps⟩ := hmeets
              refine ⟨after.outcome stop, after, .inr ?_, by omega, fun fuel hless => ?_⟩
              · cases stop with
                | fault fault => exact ⟨_, rfl⟩
                | builtinFault builtin fault => exact ⟨_, rfl⟩
                | crash => exact absurd rfl hcrash
              · obtain ⟨less, rfl, -⟩ := hfuel fuel hless
                rw [Machine.runFor, hrun]
          | ok more =>
              cases more with
              | false =>
                  cases hmeets.1 rfl
                  refine ⟨.finished, machine, .inl rfl, Nat.le_add_right _ _, fun fuel hless => ?_⟩
                  obtain ⟨less, rfl, -⟩ := hfuel fuel hless
                  rw [Machine.runFor, hrun]
              | true =>
                  obtain ⟨hafter, hconfig, hsteps, hdecreases⟩ := hmeets.2 rfl
                  have hless : remaining longest after.config.maxFrames after.frames ≤ bound - 1 := by
                    rw [hconfig]
                    omega
                  obtain ⟨outcome, last, houtcome, hlast, hends⟩ := ih (bound - 1) (by omega) hafter hless
                  refine ⟨outcome, last, houtcome, by omega, fun fuel hmore => ?_⟩
                  obtain ⟨less, rfl, hle⟩ := hfuel fuel hmore
                  rw [Machine.runFor, hrun]
                  exact hends less (by omega)

end Machine

namespace Program

variable {program : Program} {bytecode : Bytecode}

theorem finite_bytecode (hcompile : program.bytecode = .ok bytecode) :
    Template.Finite bytecode.longest ⟨bytecode.code, 0, 0⟩ ∧
      ∀ template, .function template ∈ bytecode.constants → template.Finite bytecode.longest := by
  obtain ⟨code, finish, hemits, hcode, hconstants⟩ := bytecode_emits hcompile
  refine ⟨⟨hemits.forward hcode, bytecode.le_longest.1⟩, fun template member => ?_⟩
  refine ⟨?_, bytecode.le_longest.2 template member⟩
  rw [hconstants] at member
  rcases hemits.sourced Scope.withBuiltins_valid.1 ⟨[], trivial⟩ template member with
    hnone | ⟨lambda, -, hmade⟩
  · simp at hnone
  · obtain ⟨scope, constants, instructions, inner, -, -, hbody, hbodyCode, -⟩ := hmade.compiled
    exact hbody.forward hbodyCode

end Program

namespace Machine

/-- Every compiled program halts, however its functions call each other: with any limits and on any
globals without closures, its run comes to an end or to a runtime error, and the limit on the calls in
progress alone bounds the instructions that it executes. -/
theorem compiled_program_halts (program : Program) (bytecode : Bytecode)
    (hcompile : program.bytecode = .ok bytecode) (pool : Nat) (globals : Array Value)
    (hglobals : ∀ value ∈ globals, value.ClosureFree) (config : Config) (world : World) :
    ∃ outcome machine, (outcome = .finished ∨ ∃ error, outcome = .failed error) ∧
      machine.steps ≤ bytecode.stepBound config.maxFrames ∧
      ∀ fuel, bytecode.stepBound config.maxFrames < fuel →
        run fuel (start bytecode pool globals config world) = (outcome, machine) := by
  obtain ⟨hmain, hfunctions⟩ := Program.finite_bytecode hcompile
  have hverified := start_verified (Program.verify_bytecode hcompile) pool hglobals config world
  have hfinite := start_everywhere hmain hfunctions pool
    (fun value member => (hglobals value member).mono False.elim) config world
  have halting : Halting bytecode.longest (start bytecode pool globals config world) :=
    ⟨hverified, hfinite⟩
  obtain ⟨outcome, machine, houtcome, hsteps, hends⟩ := halting.runFor (Nat.le_refl _)
  have hbound : remaining bytecode.longest config.maxFrames
      (start bytecode pool globals config world).frames = bytecode.stepBound config.maxFrames := rfl
  rw [show (start bytecode pool globals config world).config = config from rfl, hbound] at hsteps hends
  refine ⟨outcome, machine, houtcome, ?_, hends⟩
  rwa [show (start bytecode pool globals config world).steps = 0 from rfl, Nat.zero_add] at hsteps

def forking : Program :=
  ⟨[.bind "fork" (.function (some "fork") [] [.expr (.call (.ident "fork") []),
      .expr (.call (.ident "fork") [])]),
    .expr (.call (.ident "fork") [])]⟩

theorem forking_halts :
    ∃ bytecode, forking.bytecode = .ok bytecode ∧
      (∀ value ∈ #[Value.integer 7], Value.ClosureFree value) ∧
      ∃ outcome machine, (outcome = .finished ∨ ∃ error, outcome = .failed error) ∧
        machine.steps ≤ bytecode.stepBound 4 ∧
        ∀ fuel, bytecode.stepBound 4 < fuel →
          run fuel (start bytecode 0 #[.integer 7] ⟨64, 4, 8, none⟩ .fresh) = (outcome, machine) := by
  have hglobals : ∀ value ∈ #[Value.integer 7], Value.ClosureFree value := by
    intro value member
    rw [Array.mem_singleton.mp member]
    exact .integer 7
  have hcompiles : forking.bytecode.isOk = true := by decide +kernel
  cases hcompile : forking.bytecode with
  | error error =>
      rw [hcompile] at hcompiles
      cases hcompiles
  | ok bytecode =>
      exact ⟨bytecode, rfl, hglobals,
        compiled_program_halts forking bytecode hcompile 0 _ hglobals ⟨64, 4, 8, none⟩ .fresh⟩

end Machine

end Stacklang

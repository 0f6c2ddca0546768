import Stacklang.Proofs.Compile.Settled

namespace Stacklang.Machine

open Fallible Instruction

theorem Passes.activation {start machine : Machine} (passes : Passes start machine)
    (hmain : start.callers = []) {depth : Nat} (hdepth : depth < machine.callers.length) :
    ∃ caller written, Passes start caller ∧ caller.callers.length = depth ∧
      Activation caller written machine := by
  induction passes with
  | start =>
      rw [hmain] at hdepth
      exact absurd hdepth (Nat.not_lt_zero _)
  | @step before after hbefore hstep ih =>
      have hlength := (step_depth hstep).2
      rcases Nat.lt_or_ge depth before.callers.length with hless | hmore
      · obtain ⟨caller, written, hcaller, rfl, hactivation⟩ := ih hless
        rcases Nat.lt_or_ge (caller.callers.length + 1) before.callers.length with hinner | hown
        · exact ⟨caller, _, hcaller, rfl, hactivation.inner hinner hstep⟩
        · exact ⟨caller, _, hcaller, rfl, hactivation.own (by omega) hstep hdepth⟩
      · exact ⟨before, _, hbefore, by omega, .entered hstep (by omega)⟩

theorem stores_of_fetch {machine : Machine} {instruction : Instruction}
    (hfetch : machine.frame.template.code.fetch? machine.frame.ip = some (.ok instruction)) :
    machine.stores = instruction.stores := by
  rw [Machine.stores, hfetch]

theorem eq_frame_of_depth {machine : Machine} {inner rest : List Frame} {frame : Frame}
    (hframes : machine.frames = inner ++ frame :: rest)
    (hdepth : rest.length = machine.callers.length) :
    machine.frame = frame ∧ machine.callers = rest := by
  have hlength : machine.callers.length + 1 = machine.frames.length := rfl
  have hnone : inner = [] := by
    rw [hframes, List.length_append, List.length_cons] at hlength
    exact List.length_eq_zero_iff.mp (by omega)
  subst hnone
  exact List.cons.inj hframes

theorem Activation.assigned {caller machine : Machine} {written : List Nat}
    (activation : Activation caller written machine)
    (settled : caller.Everywhere Template.Settled) :
    ∃ inner frame rest, machine.frames = inner ++ frame :: rest ∧
      rest.length = caller.callers.length + 1 ∧
      Assigned frame.template.code frame.ip written := by
  -- The invariant is on the frame of the call: it is the innermost one when the call itself takes a
  -- step, and waits unchanged below the others when a call inside it does.
  induction activation with
  | @entered machine hstep hdeeper =>
      have hsettled := (settled.passes (.step .start hstep)).calls _ List.mem_cons_self
      obtain ⟨instruction, -, moves⟩ := step_moves hstep
      refine ⟨[], machine.frame, machine.callers, rfl, hdeeper, ?_⟩
      have hlength : machine.callers.length + 1 = machine.frames.length := rfl
      rcases moves.frames with ⟨ip, hframes, -⟩ | ⟨called, hip, -, hframes⟩ | hframes
      · rw [hframes, List.length_cons] at hlength
        omega
      · have hframe : machine.frame = called := (List.cons.inj hframes).1
        rw [hframe] at hsettled ⊢
        rw [hip]
        exact hsettled
      · rw [hframes] at hlength
        omega
  | @own written before after _ hown hstep hdeeper ih =>
      obtain ⟨inner, frame, rest, hframes, hrest, hassigned⟩ := ih
      obtain ⟨instruction, hfetch, moves⟩ := step_moves hstep
      obtain ⟨rfl, rfl⟩ := eq_frame_of_depth hframes (hrest.trans hown.symm)
      obtain ⟨-, hnext, htarget⟩ := hassigned.fetched hfetch
      have hdepth : after.callers.length + 1 = after.frames.length := rfl
      rw [stores_of_fetch hfetch]
      rcases moves.frames with ⟨ip, hafter, hip⟩ | ⟨called, -, hop, hafter⟩ | hafter
      · refine ⟨[], _, _, hafter, hrest, ?_⟩
        rcases hip with ⟨hfalls, rfl⟩ | hjump
        · exact hnext hfalls
        · have hstores : instruction.stores = [] := by
            rw [Instruction.stores, if_neg]
            intro hop
            simp [target?, Opcode.isJump, hop] at hjump
          rw [hstores]
          exact htarget ip hjump
      · exact ⟨[called], _, _, hafter, hrest, hnext (by simp [FallsThrough, hop])⟩
      · rw [hafter] at hdepth
        omega
  | @inner written before after _ hinner hstep ih =>
      obtain ⟨inner, frame, rest, hframes, hrest, hassigned⟩ := ih
      obtain ⟨instruction, -, moves⟩ := step_moves hstep
      have hlength : before.callers.length + 1 = before.frames.length := rfl
      cases inner with
      | nil =>
          rw [hframes, List.nil_append, List.length_cons] at hlength
          omega
      | cons top inner =>
          obtain ⟨inner, hafter⟩ := moves.waiting hframes
          exact ⟨inner, frame, rest, hafter, hrest, hassigned⟩

theorem Activation.stored {caller machine : Machine} {written : List Nat} {slot : Nat}
    (activation : Activation caller written machine)
    (settled : caller.Everywhere Template.Settled)
    (hown : machine.callers.length = caller.callers.length + 1)
    (hfetch : machine.frame.template.code.fetch? machine.frame.ip = some (.ok ⟨.getLocal, [slot]⟩)) :
    slot ∈ written := by
  obtain ⟨inner, frame, rest, hframes, hrest, hassigned⟩ := activation.assigned settled
  obtain ⟨rfl, rfl⟩ := eq_frame_of_depth hframes (hrest.trans hown.symm)
  exact (hassigned.fetched hfetch).1 rfl

end Stacklang.Machine

import Stacklang.Proofs.Session.Inputs

namespace Stacklang

inductive Operation where
  | eval (fuel : Nat) (source : String)
  | compile (source : String)
  | load (bytes : List UInt8)
  | run (fuel : Nat) (index : Nat)

def Operation.source? : Operation → Option String
  | eval _ source | compile source => some source
  | load _ | run _ _ => none

/-- A session with what has been made in it. -/
structure Desk where
  session : Session
  images : List Image
  ran : List Bytecode

namespace Desk

def new (config : Config) : Desk :=
  ⟨.new config, [], []⟩

def receive {ε : Type} (desk : Desk) : Except ε Image × Session → Desk × Option Image
  | (.error _, session) => ({ desk with session }, none)
  | (.ok image, session) => ({ desk with session, images := image :: desk.images }, some image)

/-- What an operation does before anything runs. The image that it runs then is on the desk. -/
def prepare (desk : Desk) : Operation → Desk × Option (Nat × Image)
  | .eval fuel source =>
      let (desk, image) := desk.receive (desk.session.compile source)
      (desk, image.map (fuel, ·))
  | .compile source => ((desk.receive (desk.session.compile source)).1, none)
  | .load bytes => ((desk.receive (desk.session.load bytes)).1, none)
  | .run fuel index => (desk, desk.images[index]?.map (fuel, ·))

def machine (desk : Desk) (image : Image) : Machine :=
  .start image.bytecode image.pool desk.session.globals desk.session.config desk.session.world

def run (desk : Desk) (fuel : Nat) (image : Image) : Desk :=
  { desk with
    session := (desk.session.run fuel image).2
    ran := image.bytecode :: desk.ran }

def perform (desk : Desk) (operation : Operation) : Desk :=
  match desk.prepare operation with
  | (desk, none) => desk
  | (desk, some (fuel, image)) => desk.run fuel image

def starts? (desk : Desk) (operation : Operation) : Option Machine :=
  (desk.prepare operation).2.map fun (_, image) => (desk.prepare operation).1.machine image

/-- The desks that come of allowed operations. -/
inductive Reached (allowed : Desk → Operation → Prop) (config : Config) : Desk → Prop where
  | new : Reached allowed config (.new config)
  | perform {desk : Desk} {operation : Operation} (reached : Reached allowed config desk)
      (hallowed : allowed desk operation) : Reached allowed config (desk.perform operation)

theorem perform_session (desk : Desk) (operation : Operation) :
    (desk.perform operation).session =
      match operation with
      | .eval fuel source => (desk.session.eval fuel source).2
      | .compile source => (desk.session.compile source).2
      | .load bytes => (desk.session.load bytes).2
      | .run fuel index =>
          match desk.images[index]? with
          | none => desk.session
          | some image => (desk.session.run fuel image).2 := by
  cases operation with
  | eval fuel source =>
      simp only [perform, prepare, Session.eval]
      rcases desk.session.compile source with ⟨_ | image, session⟩ <;> rfl
  | compile source =>
      simp only [perform, prepare]
      rcases desk.session.compile source with ⟨_ | image, session⟩ <;> rfl
  | load bytes =>
      simp only [perform, prepare]
      rcases desk.session.load bytes with ⟨_ | image, session⟩ <;> rfl
  | run fuel index =>
      simp only [perform, prepare]
      cases desk.images[index]? <;> rfl

theorem prepare_cases (desk : Desk) (operation : Operation) :
    (desk.prepare operation).1 = desk ∨
    (∃ source image session, operation.source? = some source ∧
      desk.session.compile source = (.ok image, session) ∧
      (desk.prepare operation).1 = { desk with session, images := image :: desk.images }) ∨
    ∃ bytes bytecode, operation = .load bytes ∧ Bytecode.ofBytes bytes = .ok bytecode ∧
      (desk.prepare operation).1 =
        { desk with
          session := { desk.session with loaded := desk.session.loaded + 1 }
          images := ⟨bytecode, desk.session.loaded + 1⟩ :: desk.images } := by
  have hcompile : ∀ source, (desk.receive (desk.session.compile source)).1 = desk ∨
      ∃ image session, desk.session.compile source = (.ok image, session) ∧
        (desk.receive (desk.session.compile source)).1 =
          { desk with session, images := image :: desk.images } := by
    intro source
    cases hcompile : desk.session.compile source with
    | mk outcome session =>
        cases outcome with
        | error error =>
            obtain ⟨rfl, -⟩ := Session.compile_fails hcompile
            exact .inl rfl
        | ok image => exact .inr ⟨image, session, rfl, rfl⟩
  cases operation with
  | eval fuel source | compile source =>
      rcases hcompile source with hsame | ⟨image, session, hok, hmade⟩
      · exact .inl hsame
      · exact .inr (.inl ⟨source, image, session, rfl, hok, hmade⟩)
  | load bytes =>
      simp only [prepare, Session.load]
      cases hload : Bytecode.ofBytes bytes with
      | error error => exact .inl rfl
      | ok bytecode => exact .inr (.inr ⟨bytes, bytecode, rfl, hload, rfl⟩)
  | run => exact .inl rfl

theorem prepare_runs {desk : Desk} {operation : Operation} {fuel : Nat} {image : Image}
    (hruns : (desk.prepare operation).2 = some (fuel, image)) :
    image ∈ (desk.prepare operation).1.images := by
  cases operation with
  | eval _ source =>
      simp only [prepare] at hruns ⊢
      rcases hcompile : desk.session.compile source with ⟨_ | made, session⟩
      · simp [hcompile, receive] at hruns
      · simp only [hcompile, receive, Option.map_some, Option.some.injEq, Prod.mk.injEq] at hruns ⊢
        exact hruns.2 ▸ List.mem_cons_self
  | compile | load => cases hruns
  | run _ index =>
      obtain ⟨made, hmade, heq⟩ := Option.map_eq_some_iff.mp hruns
      cases heq
      exact List.mem_of_getElem? hmade

theorem starts?_eq_some {desk : Desk} {operation : Operation} {start : Machine} :
    desk.starts? operation = some start ↔
      ∃ fuel image, (desk.prepare operation).2 = some (fuel, image) ∧
        (desk.prepare operation).1.machine image = start := by
  simp [starts?]

/-- What holds of a desk holds after an operation if it is kept by its preparations and by running
what is on the desk. -/
theorem perform_keeps (property : Desk → Prop) {desk : Desk} {operation : Operation}
    (hprepared : property (desk.prepare operation).1)
    (hrun : ∀ {desk fuel image}, property desk → image ∈ desk.images →
      property (desk.run fuel image)) :
    property (desk.perform operation) := by
  rw [perform]
  rcases hprepare : desk.prepare operation with ⟨prepared, _ | ⟨fuel, image⟩⟩
  · rwa [hprepare] at hprepared
  · have hmember : image ∈ (desk.prepare operation).1.images := prepare_runs (by rw [hprepare])
    rw [hprepare] at hprepared hmember
    exact hrun hprepared hmember

theorem run_eq (desk : Desk) (fuel : Nat) (image : Image) :
    desk.run fuel image =
      { desk with
        session :=
          { desk.session with
            globals := (Machine.run fuel (desk.machine image)).2.globals
            world := (Machine.run fuel (desk.machine image)).2.world }
        ran := image.bytecode :: desk.ran } := by
  have hsession : (desk.session.run fuel image).2 =
      { desk.session with
        globals := (Machine.run fuel (desk.machine image)).2.globals
        world := (Machine.run fuel (desk.machine image)).2.world } := by
    unfold Session.run
    dsimp only
    split <;> rfl
  rw [run, hsession]

theorem perform_eq_run {desk : Desk} {operation : Operation} {fuel : Nat} {image : Image}
    (hruns : (desk.prepare operation).2 = some (fuel, image)) :
    desk.perform operation = (desk.prepare operation).1.run fuel image := by
  rw [perform]
  rcases hprepare : desk.prepare operation with ⟨prepared, _ | ⟨fuel', image'⟩⟩
  · rw [hprepare] at hruns
    cases hruns
  · rw [hprepare] at hruns
    cases hruns
    rfl

end Desk

end Stacklang

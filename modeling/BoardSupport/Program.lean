import BoardSupport.Fault

/-! Programs that talk to a device through a fixed set of requests. A program is a tree of
requests, so one driver runs against hardware registers, a scripted double or a model alike. -/
namespace BoardSupport

/-- The requests a device understands and the type of the reply to each. -/
structure Interface where
  Request : Type
  Reply : Request → Type

/-- A program that talks to a device of interface `I` and ends with a value. -/
inductive Program (I : Interface) : Type → Type 1
  | done {α : Type} (value : α) : Program I α
  /-- Gives up for good. -/
  | fault {α : Type} (cause : Fault) : Program I α
  /-- Makes one request and goes on with its reply. -/
  | ask {α : Type} (request : I.Request) (next : I.Reply request → Program I α) : Program I α
  /-- Runs `body` from `start`, again from each `inl` it ends with, and goes on from the first
  `inr`. Nothing bounds the number of rounds. -/
  | loop {α σ β : Type} (body : σ → Program I (σ ⊕ β)) (start : σ) (next : β → Program I α) :
      Program I α

namespace Program

variable {I J : Interface} {α β γ σ : Type}

/-- Runs a program and then the one its value selects. -/
protected def bind : Program I α → (α → Program I β) → Program I β
  | done a, f => f a
  | fault c, _ => fault c
  | ask r next, f => ask r fun x => (next x).bind f
  | loop body s next, f => loop body s fun b => (next b).bind f

instance : Monad (Program I) where
  pure := done
  bind := Program.bind

@[simp] theorem pure_eq_done (a : α) : (pure a : Program I α) = done a := rfl

@[simp] theorem done_bind (a : α) (f : α → Program I β) : done a >>= f = f a := rfl

@[simp] theorem fault_bind (c : Fault) (f : α → Program I β) : fault c >>= f = fault c := rfl

@[simp] theorem ask_bind (r : I.Request) (next : I.Reply r → Program I α) (f : α → Program I β) :
    ask r next >>= f = ask r fun x => next x >>= f := rfl

@[simp] theorem loop_bind (body : σ → Program I (σ ⊕ γ)) (s : σ) (next : γ → Program I α)
    (f : α → Program I β) : loop body s next >>= f = loop body s fun b => next b >>= f := rfl

private theorem bind_done (p : Program I α) : p.bind done = p := by
  induction p with
  | done | fault => rfl
  | ask r next ih => simp only [Program.bind, ih]
  | loop body s next _ ih => simp only [Program.bind, ih]

private theorem bind_bind (p : Program I α) (f : α → Program I β) (g : β → Program I γ) :
    (p.bind f).bind g = p.bind fun a => (f a).bind g := by
  induction p with
  | done | fault => rfl
  | ask r next ih => simp only [Program.bind, ih]
  | loop body s next _ ih => simp only [Program.bind, ih]

instance : LawfulMonad (Program I) :=
  LawfulMonad.mk' (Program I) (fun p => bind_done p) (fun _ _ => rfl) (fun p f g => bind_bind p f g)

/-- Makes one request and ends with its reply. -/
def call (r : I.Request) : Program I (I.Reply r) := ask r done

/-- Repeats `body` from `start` until it ends with `inr`. -/
def iterate (body : σ → Program I (σ ⊕ β)) (start : σ) : Program I β := loop body start done

/-- Repeats `attempt` until it yields a value. -/
def untilSome (attempt : Program I (Option β)) : Program I β :=
  iterate (fun () => do
    match ← attempt with
    | some b => return .inr b
    | none => return .inl ()) ()

/-- Repeats `test` until it holds. -/
def waitUntil (test : Program I Bool) : Program I Unit :=
  iterate (fun () => do
    if ← test then return .inr () else return .inl ()) ()

/-- The value of a computation that may fault, as a step of a program. -/
def ofExcept : Except Fault α → Program I α
  | .ok a => done a
  | .error c => fault c

/-- Carries each request of one interface out by a program of another. -/
def interpret (via : (r : I.Request) → Program J (I.Reply r)) : {α : Type} → Program I α → Program J α
  | _, done a => done a
  | _, fault c => fault c
  | _, ask r next => via r >>= fun x => (next x).interpret via
  | _, loop body s next => loop (fun s => (body s).interpret via) s fun b => (next b).interpret via

theorem interpret_bind (via : (r : I.Request) → Program J (I.Reply r)) (p : Program I α)
    (f : α → Program I β) : (p >>= f).interpret via = p.interpret via >>= fun a => (f a).interpret via := by
  induction p with
  | done a => rfl
  | fault c => rfl
  | ask r next ih => simp only [ask_bind, interpret, ih, bind_assoc]
  | loop body s next _ ih => simp only [loop_bind, interpret, ih]

/-- Carries each request of one interface out by a program of another that keeps a state between
requests. -/
def interpretWith (via : (r : I.Request) → σ → Program J (I.Reply r × σ)) :
    {α : Type} → Program I α → σ → Program J (α × σ)
  | _, done a => fun s => done (a, s)
  | _, fault c => fun _ => fault c
  | _, ask r next => fun s => via r s >>= fun (x, s) => (next x).interpretWith via s
  | _, loop body start next => fun s =>
    loop (fun (t, s) => do
        match ← (body t).interpretWith via s with
        | (.inl t, s) => return .inl (t, s)
        | (.inr b, s) => return .inr (b, s))
      (start, s) fun (b, s) => (next b).interpretWith via s

/-- Takes a step again and again, each from what the one before ended with. -/
def forever (step : σ → Program I σ) (start : σ) : Program I Empty :=
  iterate (fun s => .inl <$> step s) start

end Program

end BoardSupport

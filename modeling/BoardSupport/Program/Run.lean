import BoardSupport.Program

/-! Running a program against a device. Only `loop` spends rounds. What a run settles on under one
bound it settles on under each larger one (`run_of_le`), and programs in sequence run in sequence
(`run_bind`). -/
namespace BoardSupport

/-- A device with states `σ` answers each request, or stops the run with an `ε`. -/
abbrev Device (I : Interface) (ε σ : Type) := (r : I.Request) → EStateM ε σ (I.Reply r)

/-- Why a run ended without a value. -/
inductive Halt (ε : Type)
  /-- The program gave up. -/
  | fault (cause : Fault)
  /-- The device stopped the run. -/
  | stopped (reason : ε)
  /-- A loop was still going after the rounds it was allowed. -/
  | unfinished
  deriving DecidableEq, Repr

namespace Program

variable {I J : Interface} {ε δ σ α β : Type}

/-- Takes at most `rounds` steps from `s`, each step ending with the next state or a result. -/
def steps (step : σ → EStateM (Halt ε) δ (σ ⊕ β)) : (rounds : Nat) → σ → EStateM (Halt ε) δ β
  | 0, _ => fun d => .error .unfinished d
  | n + 1, s => fun d =>
    match step s d with
    | .ok (.inl s') d' => steps step n s' d'
    | .ok (.inr b) d' => .ok b d'
    | .error e d' => .error e d'

/-- Runs a program against a device, allowing each loop `rounds` rounds. The device's state at
the end is kept however the run ends. -/
def run (rounds : Nat) (device : Device I ε δ) : {α : Type} → Program I α → EStateM (Halt ε) δ α
  | _, done a => fun d => .ok a d
  | _, fault c => fun d => .error (.fault c) d
  | _, ask r next => fun d =>
    match device r d with
    | .ok x d' => (next x).run rounds device d'
    | .error e d' => .error (.stopped e) d'
  | _, loop body s next => fun d =>
    match steps (fun s => (body s).run rounds device) rounds s d with
    | .ok b d' => (next b).run rounds device d'
    | .error e d' => .error e d'

/-- A run that ended for another reason than a shortage of rounds. -/
def Settled (r : EStateM.Result (Halt ε) δ α) : Prop := ∀ d, r ≠ .error .unfinished d

/-- A program in sequence with another runs as the one and then the other. -/
theorem run_bind (n : Nat) (device : Device I ε δ) (p : Program I α) (f : α → Program I β) :
    (p >>= f).run n device = (do let a ← p.run n device; (f a).run n device) := by
  funext d
  change _ = EStateM.bind _ _ d
  induction p generalizing d with
  | done a => rfl
  | fault c => rfl
  | ask r next ih =>
    simp only [ask_bind, run, EStateM.bind]
    cases device r d with
    | ok x d' => exact ih x f d'
    | error e d' => rfl
  | loop body s next _ ih =>
    simp only [loop_bind, run, EStateM.bind]
    cases steps (fun s => (body s).run n device) n s d with
    | ok b d' => exact ih b f d'
    | error e d' => rfl

/-- What steps settle on, they settle on when each step and their number have more room. -/
theorem steps_of_le {short long : σ → EStateM (Halt ε) δ (σ ⊕ β)}
    (same : ∀ s d, Settled (short s d) → long s d = short s d) {m n : Nat} (le : m ≤ n) (s : σ)
    (d : δ) (settled : Settled (steps short m s d)) : steps long n s d = steps short m s d := by
  induction m generalizing n s d with
  | zero => exact absurd rfl (settled d)
  | succ m ih =>
    obtain ⟨n, rfl⟩ : ∃ k, n = k + 1 := ⟨n - 1, by omega⟩
    have step : Settled (short s d) := fun d' h => by simp [steps, h, Settled] at settled
    simp only [steps, same s d step] at settled ⊢
    split at settled
    next s' d' h => simpa only [h] using ih (by omega) s' d' settled
    next h => rfl
    next h => rfl

/-- What a run settles on under one bound, it settles on under each larger one. -/
theorem run_of_le {m n : Nat} (le : m ≤ n) (device : Device I ε δ) (p : Program I α) (d : δ)
    (settled : Settled (p.run m device d)) : p.run n device d = p.run m device d := by
  induction p generalizing d with
  | done a => rfl
  | fault c => rfl
  | ask r next ih =>
    simp only [run] at settled ⊢
    split at settled
    next x d' h => simpa only [h] using ih x d' settled
    next h => rfl
  | loop body s next ihBody ih =>
    have rounds : Settled (steps (fun s => (body s).run m device) m s d) := fun d' h => by
      simp [run, h, Settled] at settled
    have same := steps_of_le (fun s d => ihBody s d) le s d rounds
    simp only [run, same] at settled ⊢
    split at settled
    next b d' h => simpa only [h] using ih b d' settled
    next h => rfl

/-- A bound on rounds that no run on the bench reaches. -/
def ampleRounds : Nat := 1 <<< 62

end Program

/-- A device that answers each request by running a program on another device. -/
def Device.behind {I J : Interface} {ε σ : Type} (via : (r : I.Request) → Program J (I.Reply r))
    (device : Device J ε σ) : Device I (Halt ε) σ := fun r =>
  (via r).run Program.ampleRounds device

namespace Halt

/-- A halt of a device behind another is a halt of the whole. -/
def flatten {ε : Type} : Halt (Halt ε) → Halt ε
  | fault cause => fault cause
  | stopped reason => reason
  | unfinished => unfinished

end Halt

end BoardSupport

import BoardSupport.Program.Run

/-! How a run ends, whatever bound on rounds it is given. The rules follow the shape of a program:
one for each of its constructors, and one for sequences. -/
namespace BoardSupport.Program

variable {I : Interface} {ε δ σ α β : Type} {device : Device I ε δ}

/-- The result that a run settles on once it is allowed enough rounds. -/
def Ends (device : Device I ε δ) (p : Program I α) (d : δ) (r : EStateM.Result (Halt ε) δ α) : Prop :=
  Settled r ∧ ∃ rounds, p.run rounds device d = r

theorem settled_ok (a : α) (d : δ) : Settled (.ok a d : EStateM.Result (Halt ε) δ α) :=
  fun _ h => by cases h

theorem settled_stopped (e : ε) (d : δ) :
    Settled (.error (.stopped e) d : EStateM.Result (Halt ε) δ α) :=
  fun _ h => by cases h

theorem settled_fault (c : Fault) (d : δ) :
    Settled (.error (.fault c) d : EStateM.Result (Halt ε) δ α) :=
  fun _ h => by cases h

namespace Ends

variable {p : Program I α} {f : α → Program I β} {d d' : δ}

/-- From some bound on, every run has the result. -/
theorem from_bound {r : EStateM.Result (Halt ε) δ α} (h : Ends device p d r) :
    ∃ n, ∀ rounds, n ≤ rounds → p.run rounds device d = r := by
  obtain ⟨settled, n, run⟩ := h
  refine ⟨n, fun rounds le => ?_⟩
  rw [run_of_le le device p d (run ▸ settled), run]

/-- A run ends in one way only. -/
theorem unique {r r' : EStateM.Result (Halt ε) δ α} (h : Ends device p d r)
    (h' : Ends device p d r') : r = r' := by
  obtain ⟨n, run⟩ := h.from_bound
  obtain ⟨n', run'⟩ := h'.from_bound
  rw [← run (max n n') (Nat.le_max_left _ _), run' (max n n') (Nat.le_max_right _ _)]

theorem done (a : α) (d : δ) : Ends device (.done a) d (.ok a d) := ⟨settled_ok a d, 0, rfl⟩

theorem fault (c : Fault) (d : δ) : Ends device (.fault c : Program I α) d (.error (.fault c) d) :=
  ⟨settled_fault c d, 0, rfl⟩

theorem ask {req : I.Request} {next : I.Reply req → Program I α} {x : I.Reply req}
    {r : EStateM.Result (Halt ε) δ α} (reply : device req d = .ok x d')
    (rest : Ends device (next x) d' r) : Ends device (.ask req next) d r := by
  obtain ⟨settled, n, run⟩ := rest
  exact ⟨settled, n, by simp only [Program.run, reply, run]⟩

theorem ask_stopped {req : I.Request} {next : I.Reply req → Program I α} {e : ε}
    (stop : device req d = .error e d') : Ends device (.ask req next) d (.error (.stopped e) d') :=
  ⟨settled_stopped e d', 0, by simp only [Program.run, stop]⟩

theorem bind {a : α} {r : EStateM.Result (Halt ε) δ β} (first : Ends device p d (.ok a d'))
    (rest : Ends device (f a) d' r) : Ends device (p >>= f) d r := by
  obtain ⟨n, run⟩ := first.from_bound
  obtain ⟨n', run'⟩ := rest.from_bound
  refine ⟨rest.1, max n n', ?_⟩
  rw [run_bind]
  change EStateM.bind _ _ d = r
  simp only [EStateM.bind, run (max n n') (Nat.le_max_left _ _), run' (max n n') (Nat.le_max_right _ _)]

private theorem steps_settled {body : σ → Program I (σ ⊕ β)} {next : β → Program I α} {s : σ}
    {n : Nat} {r : EStateM.Result (Halt ε) δ α} (settled : Settled r)
    (run : (Program.loop body s next).run n device d = r) :
    Settled (steps (fun s => (body s).run n device) n s d) := by
  intro d' unfinished
  rw [← run] at settled
  exact settled d' (by simp only [Program.run, unfinished])

/-- A loop whose body asks for another round goes on from there. -/
theorem again {body : σ → Program I (σ ⊕ β)} {next : β → Program I α} {s s' : σ}
    {r : EStateM.Result (Halt ε) δ α} (round : Ends device (body s) d (.ok (.inl s') d'))
    (rest : Ends device (.loop body s' next) d' r) : Ends device (.loop body s next) d r := by
  obtain ⟨n, runRound⟩ := round.from_bound
  obtain ⟨n', runRest⟩ := rest.from_bound
  let m := max n n'
  refine ⟨rest.1, m + 1, ?_⟩
  have here := runRound (m + 1) (by omega)
  have there := runRest m (Nat.le_max_right _ _)
  have settled := steps_settled rest.1 there
  -- Inside, the loop still has `m` rounds, but each of its bodies has `m + 1`.
  have same := steps_of_le (fun s d => run_of_le (Nat.le_succ m) device (body s) d) (Nat.le_refl m)
    s' d' settled
  simp only [Program.run, steps, here, same]
  rw [← there]
  simp only [Program.run]
  -- What follows the loop settles under `m` rounds, so under one more.
  cases h : steps (fun s => (body s).run m device) m s' d' with
  | error e d'' => rfl
  | ok b d'' =>
    have tail : (next b).run m device d'' = r := by simpa only [Program.run, h] using there
    exact run_of_le (Nat.le_succ m) device (next b) d'' (tail ▸ rest.1)

/-- A loop whose body is content goes on behind it. -/
theorem leave {body : σ → Program I (σ ⊕ β)} {next : β → Program I α} {s : σ} {b : β}
    {r : EStateM.Result (Halt ε) δ α} (round : Ends device (body s) d (.ok (.inr b) d'))
    (rest : Ends device (next b) d' r) : Ends device (.loop body s next) d r := by
  obtain ⟨n, runRound⟩ := round.from_bound
  obtain ⟨n', runRest⟩ := rest.from_bound
  refine ⟨rest.1, max n n' + 1, ?_⟩
  simp only [Program.run, steps, runRound (max n n' + 1) (by omega), runRest (max n n' + 1) (by omega)]

/-- A loop whose body is stopped or gives up ends so. -/
theorem cut {body : σ → Program I (σ ⊕ β)} {next : β → Program I α} {s : σ} {e : Halt ε}
    (round : Ends device (body s) d (.error e d')) :
    Ends device (.loop body s next) d (.error e d') := by
  obtain ⟨n, runRound⟩ := round.from_bound
  refine ⟨?_, n + 1, by simp only [Program.run, steps, runRound (n + 1) (by omega)]⟩
  rintro _ ⟨⟩
  exact round.1 d' rfl

end Ends

end BoardSupport.Program

import BoardSupport.Proofs.Program.Exchange

/-! What has passed between a program and its device by some moment, whether or not the program ever
ends. Whatever cuts a run short, what it has logged is such a beginning (`begins_logged`). -/
namespace BoardSupport.Program

variable {I : Interface} {ε δ σ α β : Type}

/-- At some moment just these exchanges have passed, earliest first. -/
inductive Begins : {α : Type} → Program I α → List (Exchange I) → Prop
  | nil {α : Type} (p : Program I α) : Begins p []
  | ask {α : Type} {r : I.Request} {next : I.Reply r → Program I α} {x : I.Reply r}
      {log : List (Exchange I)} (rest : Begins (next x) log) : Begins (.ask r next) (⟨r, x⟩ :: log)
  | inside {α σ β : Type} {body : σ → Program I (σ ⊕ β)} {next : β → Program I α} {s : σ}
      {log : List (Exchange I)} (once : Begins (body s) log) : Begins (.loop body s next) log
  | again {α σ β : Type} {body : σ → Program I (σ ⊕ β)} {next : β → Program I α} {s s' : σ}
      {round log : List (Exchange I)} (once : Follows (body s) round (.inl s'))
      (rest : Begins (.loop body s' next) log) : Begins (.loop body s next) (round ++ log)
  | leave {α σ β : Type} {body : σ → Program I (σ ⊕ β)} {next : β → Program I α} {s : σ} {b : β}
      {round log : List (Exchange I)} (once : Follows (body s) round (.inr b))
      (rest : Begins (next b) log) : Begins (.loop body s next) (round ++ log)

theorem Follows.begins {p : Program I α} {log : List (Exchange I)} {a : α} (h : Follows p log a) :
    Begins p log := by
  induction h with
  | done => exact .nil _
  | ask _ ih => exact .ask ih
  | again once _ _ ih => exact .again once ih
  | leave once _ _ ih => exact .leave once ih

theorem begins_done {a : α} {log : List (Exchange I)} : Begins (.done a) log ↔ log = [] := by
  constructor
  · rintro ⟨⟩
    rfl
  · rintro rfl
    exact .nil _

theorem begins_ask {r : I.Request} {next : I.Reply r → Program I α} {log : List (Exchange I)} :
    Begins (.ask r next) log ↔ log = [] ∨ ∃ x rest, log = ⟨r, x⟩ :: rest ∧ Begins (next x) rest := by
  constructor
  · intro h
    cases h with
    | nil => exact .inl rfl
    | ask rest => exact .inr ⟨_, _, rfl, rest⟩
  · rintro (rfl | ⟨x, rest, rfl, h⟩)
    · exact .nil _
    · exact .ask h

theorem begins_call {r : I.Request} {log : List (Exchange I)} :
    Begins (call r) log ↔ log = [] ∨ ∃ x, log = [⟨r, x⟩] := by
  rw [call, begins_ask]
  simp only [begins_done]
  constructor
  · rintro (rfl | ⟨x, _, rfl, rfl⟩)
    · exact .inl rfl
    · exact .inr ⟨x, rfl⟩
  · rintro (rfl | ⟨x, rfl⟩)
    · exact .inl rfl
    · exact .inr ⟨x, [], rfl, rfl⟩

private theorem begins_loop_split {body : σ → Program I (σ ⊕ β)} {next : β → Program I α} {s : σ}
    {log : List (Exchange I)} (h : Begins (.loop body s next) log) :
    Begins (iterate body s) log ∨ ∃ b first second, log = first ++ second ∧
      Follows (iterate body s) first b ∧ Begins (next b) second := by
  generalize same : Program.loop body s next = p at h
  induction h generalizing s with
  | nil => exact .inl (.nil _)
  | ask => cases same
  | inside once =>
    cases same
    exact .inl (.inside once)
  | again once _ ih =>
    cases same
    rcases ih rfl with within | ⟨b, first, second, rfl, rounds, rest⟩
    · exact .inl (.again once within)
    · exact .inr ⟨b, _, second, (List.append_assoc ..).symm, .again once rounds, rest⟩
  | leave once rest =>
    cases same
    exact .inr ⟨_, _, _, rfl, once.last, rest⟩

private theorem begins_loop_within {body : σ → Program I (σ ⊕ β)} {next : β → Program I α} {s : σ}
    {log : List (Exchange I)} (h : Begins (iterate body s) log) : Begins (.loop body s next) log := by
  unfold iterate at h
  generalize same : Program.loop body s .done = p at h
  induction h generalizing s with
  | nil => exact .nil _
  | ask => cases same
  | inside once =>
    cases same
    exact .inside once
  | again once _ ih =>
    cases same
    exact .again once (ih rfl)
  | leave once ended =>
    cases same
    obtain rfl := begins_done.mp ended
    exact .leave once (.nil _)

private theorem begins_loop_join {body : σ → Program I (σ ⊕ β)} {next : β → Program I α} {s : σ}
    {first second : List (Exchange I)} {b : β} (h : Follows (iterate body s) first b)
    (rest : Begins (next b) second) : Begins (.loop body s next) (first ++ second) := by
  apply Follows.rounds (motive := fun s first b =>
    Begins (next b) second → Begins (.loop body s next) (first ++ second)) _ _ h rest
  · intro s round b once rest
    exact .leave once rest
  · intro s s' round log b once ih rest
    rw [List.append_assoc]
    exact .again once (ih rest)

/-- A loop is still in its rounds, or has ended and what comes after it has begun. -/
theorem begins_loop {body : σ → Program I (σ ⊕ β)} {next : β → Program I α} {s : σ}
    {log : List (Exchange I)} : Begins (.loop body s next) log ↔ Begins (iterate body s) log ∨
      ∃ b first second, log = first ++ second ∧ Follows (iterate body s) first b ∧
        Begins (next b) second := by
  constructor
  · exact begins_loop_split
  · rintro (within | ⟨b, first, second, rfl, rounds, rest⟩)
    · exact begins_loop_within within
    · exact begins_loop_join rounds rest

/-- What holds of the beginning of a round, and of a round before rounds whose beginning it holds of,
holds of the beginning of a loop. -/
theorem Begins.rounds {body : σ → Program I (σ ⊕ β)} {motive : σ → List (Exchange I) → Prop}
    (inside : ∀ {s log}, Begins (body s) log → motive s log)
    (again : ∀ {s s' round log}, Follows (body s) round (.inl s') → motive s' log →
      motive s (round ++ log))
    {s : σ} {log : List (Exchange I)} (h : Begins (iterate body s) log) : motive s log := by
  unfold iterate at h
  generalize same : Program.loop body s .done = p at h
  induction h generalizing s with
  | nil => exact inside (.nil _)
  | ask => cases same
  | inside once =>
    cases same
    exact inside once
  | again once _ ih =>
    cases same
    exact again once (ih inside again rfl)
  | leave once ended =>
    cases same
    obtain rfl := begins_done.mp ended
    rw [List.append_nil]
    exact inside once.begins

/-- The first part of a sequence is still under way, or has ended and the second has begun. -/
theorem begins_bind {p : Program I α} {f : α → Program I β} {log : List (Exchange I)} :
    Begins (p >>= f) log ↔ Begins p log ∨
      ∃ a first second, log = first ++ second ∧ Follows p first a ∧ Begins (f a) second := by
  induction p generalizing log with
  | done a =>
    constructor
    · intro h
      exact .inr ⟨a, [], log, rfl, .done a, h⟩
    · rintro (nothing | ⟨a', first, second, rfl, ended, rest⟩)
      · obtain rfl := begins_done.mp nothing
        exact .nil _
      · obtain ⟨rfl, rfl⟩ := follows_done.mp ended
        exact rest
  | fault c =>
    constructor
    · rintro ⟨⟩
      exact .inl (.nil _)
    · rintro (within | ⟨a, first, second, rfl, ⟨⟩, rest⟩)
      cases within
      exact .nil _
  | ask r next ih =>
    simp only [ask_bind, begins_ask, follows_ask, ih]
    constructor
    · rintro (rfl | ⟨x, rest, rfl, within | ⟨a, first, second, rfl, h, after⟩⟩)
      · exact .inl (.inl rfl)
      · exact .inl (.inr ⟨x, rest, rfl, within⟩)
      · exact .inr ⟨a, ⟨r, x⟩ :: first, second, rfl, ⟨x, first, rfl, h⟩, after⟩
    · rintro ((rfl | ⟨x, rest, rfl, within⟩) | ⟨a, _, second, rfl, ⟨x, first, rfl, h⟩, after⟩)
      · exact .inl rfl
      · exact .inr ⟨x, rest, rfl, .inl within⟩
      · exact .inr ⟨x, first ++ second, rfl, .inr ⟨a, first, second, rfl, h, after⟩⟩
  | loop body s next _ ih =>
    simp only [loop_bind]
    rw [begins_loop]
    simp only [@begins_loop _ _ _ _ _ next, @follows_loop _ _ _ _ _ next, ih]
    constructor
    · rintro (within | ⟨c, rounds, _, rfl, looped, part | ⟨a, first, second, rfl, h, rest⟩⟩)
      · exact .inl (.inl within)
      · exact .inl (.inr ⟨c, rounds, _, rfl, looped, part⟩)
      · exact .inr ⟨a, rounds ++ first, second, (List.append_assoc ..).symm,
          ⟨c, rounds, first, rfl, looped, h⟩, rest⟩
    · rintro ((within | ⟨c, rounds, rest, rfl, looped, part⟩) |
        ⟨a, _, second, rfl, ⟨c, rounds, first, rfl, looped, h⟩, rest⟩)
      · exact .inl within
      · exact .inr ⟨c, rounds, rest, rfl, looped, .inl part⟩
      · exact .inr ⟨c, rounds, first ++ second, List.append_assoc .., looped,
          .inr ⟨a, first, second, rfl, h, rest⟩⟩

section Runs

/-- The state in which a run has left the device, however it ended. -/
def finalState : EStateM.Result ε δ α → δ
  | .ok _ d => d
  | .error _ d => d

/-- What has passed between a program and a device that it is run on for so many rounds. -/
def logged (rounds : Nat) (device : Device I ε δ) (p : Program I α) (d : δ) : List (Exchange I) :=
  (finalState (p.run rounds device.recorded (d, []))).2

private theorem steps_begins {device : Device I ε δ} {body : σ → Program I (σ ⊕ β)} {n : Nat}
    (inner : ∀ s d before, ∃ log, (finalState ((body s).run n device.recorded (d, before))).2 = before ++ log ∧
      Begins (body s) log)
    (m : Nat) (s : σ) (d : δ) (before : List (Exchange I)) : ∃ log,
      (finalState (steps (fun s => (body s).run n device.recorded) m s (d, before))).2 = before ++ log ∧
        Begins (iterate body s) log := by
  induction m generalizing s d before with
  | zero => exact ⟨[], (List.append_nil _).symm, .nil _⟩
  | succ m ih =>
    obtain ⟨first, logged, begun⟩ := inner s d before
    simp only [steps]
    split
    next s' mid round =>
      obtain ⟨d', after⟩ := mid
      obtain ⟨log, noted, once⟩ := run_recorded round
      subst noted
      obtain ⟨rest, later, begun⟩ := ih s' d' (before ++ log)
      exact ⟨log ++ rest, by rw [later, List.append_assoc], .again once begun⟩
    next b mid round =>
      rw [round] at logged
      exact ⟨first, logged, .inside begun⟩
    next e mid round =>
      rw [round] at logged
      exact ⟨first, logged, .inside begun⟩

private theorem run_begins (n : Nat) (device : Device I ε δ) (p : Program I α) (d : δ)
    (before : List (Exchange I)) : ∃ log,
      (finalState (p.run n device.recorded (d, before))).2 = before ++ log ∧ Begins p log := by
  induction p generalizing d before with
  | done | fault => exact ⟨[], (List.append_nil _).symm, .nil _⟩
  | ask r next ih =>
    simp only [run, Device.recorded]
    cases device r d with
    | error e d' => exact ⟨[], (List.append_nil _).symm, .nil _⟩
    | ok x d' =>
      obtain ⟨log, later, begun⟩ := ih x d' (before ++ [⟨r, x⟩])
      exact ⟨⟨r, x⟩ :: log, by simpa [Device.recorded] using later, .ask begun⟩
  | loop body s next ihBody ih =>
    obtain ⟨first, logged, begun⟩ := steps_begins (fun s d before => ihBody s d before) n s d before
    simp only [run]
    split
    next b mid rounds =>
      obtain ⟨d', after⟩ := mid
      have looped : (iterate body s).run n device.recorded (d, before) = .ok b (d', after) := by
        simp only [iterate, run, rounds]
      obtain ⟨log, rfl, course⟩ := run_recorded looped
      obtain ⟨rest, later, begun⟩ := ih b d' (before ++ log)
      exact ⟨log ++ rest, by rw [later, List.append_assoc],
        begins_loop.mpr (.inr ⟨b, log, rest, rfl, course, begun⟩)⟩
    next e mid rounds =>
      rw [rounds] at logged
      exact ⟨first, logged, begins_loop.mpr (.inl begun)⟩

/-- Whatever ends a run, or cuts it short, it has gone through a beginning of the program. -/
theorem begins_logged (rounds : Nat) (device : Device I ε δ) (p : Program I α) (d : δ) :
    Begins p (logged rounds device p d) := by
  obtain ⟨log, same, begun⟩ := run_begins rounds device p d []
  rwa [logged, same, List.nil_append]

end Runs

/-- Every request that the program can make is allowed, however long it goes on. -/
def Confined (allowed : I.Request → Prop) : {α : Type} → Program I α → Prop
  | _, done _ => True
  | _, fault _ => True
  | _, ask r next => allowed r ∧ ∀ x, (next x).Confined allowed
  | _, loop body _ next => (∀ s, (body s).Confined allowed) ∧ ∀ b, (next b).Confined allowed

section Confined

variable {allowed : I.Request → Prop}

theorem confined_call {r : I.Request} (h : allowed r) : (call r).Confined allowed :=
  ⟨h, fun _ => trivial⟩

theorem Confined.bind {p : Program I α} {f : α → Program I β} (hp : p.Confined allowed)
    (hf : ∀ a, (f a).Confined allowed) : (p >>= f).Confined allowed := by
  induction p with
  | done a => exact hf a
  | fault => trivial
  | ask r next ih => exact ⟨hp.1, fun x => ih x (hp.2 x) hf⟩
  | loop body s next _ ih => exact ⟨hp.1, fun b => ih b (hp.2 b) hf⟩

theorem confined_iterate {body : σ → Program I (σ ⊕ β)} (h : ∀ s, (body s).Confined allowed) (s : σ) :
    (iterate body s).Confined allowed := ⟨h, fun _ => trivial⟩

theorem confined_waitUntil {test : Program I Bool} (h : test.Confined allowed) :
    (waitUntil test).Confined allowed := by
  refine confined_iterate (fun _ => h.bind fun found => ?_) ()
  split <;> trivial

theorem Follows.confined {p : Program I α} {log : List (Exchange I)} {a : α} (h : Follows p log a)
    (hp : p.Confined allowed) : ∀ x ∈ log, allowed x.request := by
  induction h with
  | done => simp
  | ask _ ih => exact List.forall_mem_cons.mpr ⟨hp.1, ih (hp.2 _)⟩
  | again _ _ ihOnce ihRest => exact List.forall_mem_append.mpr ⟨ihOnce (hp.1 _), ihRest hp⟩
  | leave _ _ ihOnce ihRest => exact List.forall_mem_append.mpr ⟨ihOnce (hp.1 _), ihRest (hp.2 _)⟩

/-- Nothing passes that is not allowed. -/
theorem Begins.confined {p : Program I α} {log : List (Exchange I)} (h : Begins p log)
    (hp : p.Confined allowed) : ∀ x ∈ log, allowed x.request := by
  induction h with
  | nil => simp
  | ask _ ih => exact List.forall_mem_cons.mpr ⟨hp.1, ih (hp.2 _)⟩
  | inside _ ih => exact ih (hp.1 _)
  | again once _ ih => exact List.forall_mem_append.mpr ⟨once.confined (hp.1 _), ih hp⟩
  | leave once _ ih => exact List.forall_mem_append.mpr ⟨once.confined (hp.1 _), ih (hp.2 _)⟩

end Confined

end BoardSupport.Program

import BoardSupport.Proofs.Program.Ending

/-! What passes between a program and its device. `Follows` gives every course that a program can
take, whatever the replies, and `Device.Answers` what a device replies. A run takes a course that its
device answers (`run_course`), and there is a run for each such course (`Follows.ends`). A program that
neither loops nor gives up takes one on every device that always answers (`Bounded.run`). -/
namespace BoardSupport

/-- A request and the reply to it. -/
structure Exchange (I : Interface) where
  request : I.Request
  reply : I.Reply request

/-- A device that also notes what passes, earliest first. -/
def Device.recorded {I : Interface} {ε σ : Type} (device : Device I ε σ) :
    Device I ε (σ × List (Exchange I)) := fun r s =>
  match device r s.1 with
  | .ok x d => .ok x (d, s.2 ++ [⟨r, x⟩])
  | .error e d => .error e (d, s.2)

/-- From the one state to the other, the device replies just this. -/
inductive Device.Answers {I : Interface} {ε σ : Type} (device : Device I ε σ) :
    σ → List (Exchange I) → σ → Prop
  | nil (d : σ) : device.Answers d [] d
  | cons {d mid d' : σ} {x : Exchange I} {log : List (Exchange I)}
      (reply : device x.request d = .ok x.reply mid) (rest : device.Answers mid log d') :
      device.Answers d (x :: log) d'

section Answers

variable {I : Interface} {ε σ : Type} {device : Device I ε σ} {d d' : σ} {x : Exchange I}
  {first second log before after : List (Exchange I)}

theorem answers_nil : device.Answers d [] d' ↔ d' = d := by
  constructor
  · rintro ⟨⟩
    rfl
  · rintro rfl
    exact .nil _

theorem answers_cons : device.Answers d (x :: log) d' ↔
    ∃ mid, device x.request d = .ok x.reply mid ∧ device.Answers mid log d' := by
  constructor
  · intro h
    cases h with
    | cons reply rest => exact ⟨_, reply, rest⟩
  · rintro ⟨mid, reply, rest⟩
    exact .cons reply rest

theorem answers_append : device.Answers d (first ++ second) d' ↔
    ∃ mid, device.Answers d first mid ∧ device.Answers mid second d' := by
  induction first generalizing d with
  | nil => simp [answers_nil]
  | cons x first ih =>
    simp only [List.cons_append, answers_cons, ih]
    constructor
    · rintro ⟨next, reply, mid, here, rest⟩
      exact ⟨mid, ⟨next, reply, here⟩, rest⟩
    · rintro ⟨mid, ⟨next, reply, here⟩, rest⟩
      exact ⟨next, reply, mid, here, rest⟩

/-- Noting what passes changes no reply. -/
theorem answers_recorded : device.recorded.Answers (d, before) log (d', after) ↔
    device.Answers d log d' ∧ after = before ++ log := by
  induction log generalizing d before with
  | nil => simp [answers_nil]
  | cons x log ih =>
    simp only [answers_cons, Prod.exists, Device.recorded]
    cases reply : device x.request d with
    | error e mid => simp
    | ok y mid =>
      constructor
      · rintro ⟨next, noted, same, rest⟩
        cases same
        obtain ⟨answered, rfl⟩ := ih.mp rest
        exact ⟨⟨mid, rfl, answered⟩, by simp⟩
      · rintro ⟨⟨next, same, answered⟩, rfl⟩
        cases same
        exact ⟨mid, _, rfl, ih.mpr ⟨answered, by simp⟩⟩

end Answers

namespace Program

variable {I : Interface} {ε δ σ α β : Type}

/-- The program can end with a value after just these exchanges, earliest first. -/
inductive Follows : {α : Type} → Program I α → List (Exchange I) → α → Prop
  | done {α : Type} (a : α) : Follows (.done a) [] a
  | ask {α : Type} {r : I.Request} {next : I.Reply r → Program I α} {x : I.Reply r}
      {log : List (Exchange I)} {a : α} (rest : Follows (next x) log a) :
      Follows (.ask r next) (⟨r, x⟩ :: log) a
  | again {α σ β : Type} {body : σ → Program I (σ ⊕ β)} {next : β → Program I α} {s s' : σ}
      {round log : List (Exchange I)} {a : α} (once : Follows (body s) round (.inl s'))
      (rest : Follows (.loop body s' next) log a) : Follows (.loop body s next) (round ++ log) a
  | leave {α σ β : Type} {body : σ → Program I (σ ⊕ β)} {next : β → Program I α} {s : σ} {b : β}
      {round log : List (Exchange I)} {a : α} (once : Follows (body s) round (.inr b))
      (rest : Follows (next b) log a) : Follows (.loop body s next) (round ++ log) a

theorem follows_done {a b : α} {log : List (Exchange I)} :
    Follows (.done a) log b ↔ log = [] ∧ b = a := by
  constructor
  · rintro ⟨⟩
    exact ⟨rfl, rfl⟩
  · rintro ⟨rfl, rfl⟩
    exact .done _

theorem follows_ask {r : I.Request} {next : I.Reply r → Program I α} {log : List (Exchange I)}
    {a : α} : Follows (.ask r next) log a ↔ ∃ x rest, log = ⟨r, x⟩ :: rest ∧ Follows (next x) rest a := by
  constructor
  · rintro (_ | ⟨rest⟩)
    exact ⟨_, _, rfl, rest⟩
  · rintro ⟨x, rest, rfl, h⟩
    exact .ask h

theorem follows_call {r : I.Request} {log : List (Exchange I)} {x : I.Reply r} :
    Follows (call r) log x ↔ log = [⟨r, x⟩] := by
  rw [call, follows_ask]
  constructor
  · rintro ⟨y, rest, rfl, h⟩
    obtain ⟨rfl, rfl⟩ := follows_done.mp h
    rfl
  · rintro rfl
    exact ⟨x, [], rfl, .done x⟩

/-- A last round is all that is left of a loop. -/
theorem Follows.last {body : σ → Program I (σ ⊕ β)} {s : σ} {round : List (Exchange I)} {b : β}
    (once : Follows (body s) round (.inr b)) : Follows (iterate body s) round b := by
  have h := Follows.leave once (.done b)
  rwa [List.append_nil] at h

private theorem follows_loop_split {body : σ → Program I (σ ⊕ β)} {next : β → Program I α} {s : σ}
    {log : List (Exchange I)} {a : α} (h : Follows (.loop body s next) log a) :
    ∃ b first second, log = first ++ second ∧ Follows (iterate body s) first b ∧
      Follows (next b) second a := by
  generalize same : Program.loop body s next = p at h
  induction h generalizing s with
  | done | ask => cases same
  | again once _ _ ih =>
    cases same
    obtain ⟨b, first, second, rfl, rounds, rest⟩ := ih rfl
    exact ⟨b, _, second, (List.append_assoc ..).symm, .again once rounds, rest⟩
  | leave once rest =>
    cases same
    exact ⟨_, _, _, rfl, once.last, rest⟩

private theorem follows_loop_join {body : σ → Program I (σ ⊕ β)} {next : β → Program I α} {s : σ}
    {first second : List (Exchange I)} {b : β} {a : α} (h : Follows (iterate body s) first b)
    (rest : Follows (next b) second a) : Follows (.loop body s next) (first ++ second) a := by
  unfold iterate at h
  generalize same : Program.loop body s .done = p at h
  induction h generalizing s with
  | done | ask => cases same
  | again once _ _ ih =>
    cases same
    rw [List.append_assoc]
    exact .again once (ih rest rfl)
  | leave once ended =>
    cases same
    obtain ⟨rfl, rfl⟩ := follows_done.mp ended
    rw [List.append_nil]
    exact .leave once rest

/-- A loop's course is that of its rounds and then that of what comes after. -/
theorem follows_loop {body : σ → Program I (σ ⊕ β)} {next : β → Program I α} {s : σ}
    {log : List (Exchange I)} {a : α} : Follows (.loop body s next) log a ↔
      ∃ b first second, log = first ++ second ∧ Follows (iterate body s) first b ∧
        Follows (next b) second a := by
  constructor
  · exact follows_loop_split
  · rintro ⟨b, first, second, rfl, rounds, rest⟩
    exact follows_loop_join rounds rest

/-- What holds of a last round, and of a round before rounds that it holds of, holds of a loop. -/
theorem Follows.rounds {body : σ → Program I (σ ⊕ β)} {motive : σ → List (Exchange I) → β → Prop}
    (last : ∀ {s round b}, Follows (body s) round (.inr b) → motive s round b)
    (again : ∀ {s s' round log b}, Follows (body s) round (.inl s') → motive s' log b →
      motive s (round ++ log) b)
    {s : σ} {log : List (Exchange I)} {b : β} (h : Follows (iterate body s) log b) : motive s log b := by
  unfold iterate at h
  generalize same : Program.loop body s .done = p at h
  induction h generalizing s with
  | done | ask => cases same
  | again once _ _ ih =>
    cases same
    exact again once (ih last again rfl)
  | leave once ended =>
    cases same
    obtain ⟨rfl, rfl⟩ := follows_done.mp ended
    rw [List.append_nil]
    exact last once

/-- A course of a sequence is a course of its first part and then one of its second. -/
theorem follows_bind {p : Program I α} {f : α → Program I β} {log : List (Exchange I)} {b : β} :
    Follows (p >>= f) log b ↔
      ∃ a first second, log = first ++ second ∧ Follows p first a ∧ Follows (f a) second b := by
  induction p generalizing log with
  | done a =>
    constructor
    · intro h
      exact ⟨a, [], log, rfl, .done a, h⟩
    · rintro ⟨a', first, second, rfl, ended, rest⟩
      obtain ⟨rfl, rfl⟩ := follows_done.mp ended
      exact rest
  | fault c =>
    constructor
    · rintro ⟨⟩
    · rintro ⟨a, first, second, rfl, ⟨⟩, rest⟩
  | ask r next ih =>
    simp only [ask_bind, follows_ask, ih]
    constructor
    · rintro ⟨x, _, rfl, a, first, second, rfl, h, rest⟩
      exact ⟨a, ⟨r, x⟩ :: first, second, rfl, ⟨x, first, rfl, h⟩, rest⟩
    · rintro ⟨a, _, second, rfl, ⟨x, first, rfl, h⟩, rest⟩
      exact ⟨x, first ++ second, rfl, a, first, second, rfl, h, rest⟩
  | loop body s next _ ih =>
    simp only [loop_bind]
    rw [follows_loop]
    simp only [@follows_loop _ _ _ _ _ next, ih]
    constructor
    · rintro ⟨c, rounds, _, rfl, looped, a, first, second, rfl, h, rest⟩
      exact ⟨a, rounds ++ first, second, (List.append_assoc ..).symm,
        ⟨c, rounds, first, rfl, looped, h⟩, rest⟩
    · rintro ⟨a, _, second, rfl, ⟨c, rounds, first, rfl, looped, h⟩, rest⟩
      exact ⟨c, rounds, first ++ second, List.append_assoc .., looped, a, first, second, rfl, h, rest⟩

/-- A course over a list is made of one for each of its elements. -/
theorem follows_forM {list : List σ} {f : σ → Program I PUnit} {log : List (Exchange I)}
    (h : Follows (list.forM f) log ()) : ∃ parts : List (σ × List (Exchange I)),
      parts.map Prod.fst = list ∧ log = parts.flatMap Prod.snd ∧
        ∀ part ∈ parts, Follows (f part.1) part.2 () := by
  induction list generalizing log with
  | nil =>
    obtain ⟨rfl, -⟩ := follows_done.mp h
    exact ⟨[], rfl, rfl, by simp⟩
  | cons x rest ih =>
    obtain ⟨_, first, second, rfl, here, later⟩ := follows_bind.mp h
    obtain ⟨parts, rfl, rfl, each⟩ := ih later
    exact ⟨(x, first) :: parts, rfl, rfl, List.forall_mem_cons.mpr ⟨here, each⟩⟩

section Courses

variable {device : Device I ε δ}

private theorem steps_course {body : σ → Program I (σ ⊕ β)} {n : Nat}
    (inner : ∀ s d d' (x : σ ⊕ β), (body s).run n device d = .ok x d' →
      ∃ log, Follows (body s) log x ∧ device.Answers d log d')
    {m : Nat} {s : σ} {d d' : δ} {b : β}
    (h : steps (fun s => (body s).run n device) m s d = .ok b d') :
    ∃ log, Follows (iterate body s) log b ∧ device.Answers d log d' := by
  induction m generalizing s d with
  | zero => cases h
  | succ m ih =>
    simp only [steps] at h
    split at h
    next s' mid round =>
      obtain ⟨first, once, here⟩ := inner s d mid (.inl s') round
      obtain ⟨log, rest, there⟩ := ih h
      exact ⟨first ++ log, .again once rest, answers_append.mpr ⟨mid, here, there⟩⟩
    next b' mid round =>
      cases h
      obtain ⟨first, once, here⟩ := inner s d d' (.inr b) round
      exact ⟨first, once.last, here⟩
    next => cases h

/-- A run takes one of the program's courses, as its device answers. -/
theorem run_course {n : Nat} {p : Program I α} {d d' : δ} {a : α} (h : p.run n device d = .ok a d') :
    ∃ log, Follows p log a ∧ device.Answers d log d' := by
  induction p generalizing d d' with
  | done a =>
    cases h
    exact ⟨[], .done _, .nil _⟩
  | fault c => cases h
  | ask r next ih =>
    simp only [run] at h
    split at h
    next x mid reply =>
      obtain ⟨log, rest, there⟩ := ih x h
      exact ⟨⟨r, x⟩ :: log, .ask rest, .cons reply there⟩
    next => cases h
  | loop body s next ihBody ih =>
    simp only [run] at h
    split at h
    next b mid rounds =>
      obtain ⟨first, looped, here⟩ := steps_course (fun s _ _ _ h => ihBody s h) rounds
      obtain ⟨second, rest, there⟩ := ih _ h
      exact ⟨first ++ second, follows_loop.mpr ⟨b, first, second, rfl, looped, rest⟩,
        answers_append.mpr ⟨mid, here, there⟩⟩
    next => cases h

/-- A recorded run adds one of the program's courses to what was noted before. -/
theorem run_recorded {n : Nat} {p : Program I α} {d d' : δ} {before after : List (Exchange I)} {a : α}
    (h : p.run n device.recorded (d, before) = .ok a (d', after)) :
    ∃ log, after = before ++ log ∧ Follows p log a := by
  obtain ⟨log, course, answered⟩ := run_course h
  exact ⟨log, (answers_recorded.mp answered).2, course⟩

theorem Ends.course {p : Program I α} {d d' : δ} {a : α} (h : Ends device p d (.ok a d')) :
    ∃ log, Follows p log a ∧ device.Answers d log d' := by
  obtain ⟨-, rounds, ran⟩ := h
  exact run_course ran

/-- A course is taken if the device answers so. -/
theorem Follows.ends {p : Program I α} {log : List (Exchange I)} {a : α} {d d' : δ}
    (course : Follows p log a) (answered : device.Answers d log d') : Ends device p d (.ok a d') := by
  induction course generalizing d d' with
  | done a =>
    obtain rfl := answers_nil.mp answered
    exact .done _ _
  | ask _ ih =>
    obtain ⟨mid, reply, rest⟩ := answers_cons.mp answered
    exact .ask reply (ih rest)
  | again _ _ ihOnce ihRest =>
    obtain ⟨mid, here, rest⟩ := answers_append.mp answered
    exact .again (ihOnce here) (ihRest rest)
  | leave _ _ ihOnce ihRest =>
    obtain ⟨mid, here, rest⟩ := answers_append.mp answered
    exact .leave (ihOnce here) (ihRest rest)

/-- And so it is noted. -/
theorem Follows.ends_recorded {p : Program I α} {log : List (Exchange I)} {a : α} {d d' : δ}
    (course : Follows p log a) (answered : device.Answers d log d') :
    Ends device.recorded p (d, []) (.ok a (d', log)) :=
  course.ends (answers_recorded.mpr ⟨answered, (List.nil_append log).symm⟩)

end Courses

/-- Whatever the replies, the program ends after so many requests, all of them allowed: it neither
loops nor gives up. -/
def Bounded (allowed : I.Request → Prop) : {α : Type} → Program I α → Prop
  | _, done _ => True
  | _, fault _ => False
  | _, ask r next => allowed r ∧ ∀ x, (next x).Bounded allowed
  | _, loop .. => False

section Bounded

variable {allowed : I.Request → Prop}

theorem Bounded.imp {allowed' : I.Request → Prop} (h : ∀ r, allowed r → allowed' r) {p : Program I α}
    (hp : p.Bounded allowed) : p.Bounded allowed' := by
  induction p with
  | done => trivial
  | fault | loop => exact hp.elim
  | ask r next ih => exact ⟨h r hp.1, fun x => ih x (hp.2 x)⟩

theorem bounded_call {r : I.Request} (h : allowed r) : (call r).Bounded allowed :=
  ⟨h, fun _ => trivial⟩

theorem Bounded.bind {p : Program I α} {f : α → Program I β} (hp : p.Bounded allowed)
    (hf : ∀ a, (f a).Bounded allowed) : (p >>= f).Bounded allowed := by
  induction p with
  | done a => exact hf a
  | fault | loop => exact hp.elim
  | ask r next ih => exact ⟨hp.1, fun x => ih x (hp.2 x) hf⟩

/-- What begins a bounded program is bounded. -/
theorem Bounded.of_bind {p : Program I α} {f : α → Program I β} (h : (p >>= f).Bounded allowed) :
    p.Bounded allowed := by
  induction p with
  | done => trivial
  | fault | loop => exact h.elim
  | ask r next ih => exact ⟨h.1, fun x => ih x (h.2 x)⟩

theorem bounded_forM {list : List σ} {f : σ → Program I PUnit}
    (hf : ∀ x ∈ list, (f x).Bounded allowed) : (list.forM f).Bounded allowed := by
  induction list with
  | nil => trivial
  | cons x rest ih =>
    change (f x >>= fun _ => rest.forM f).Bounded allowed
    exact (hf x (by simp)).bind fun _ => ih fun y hy => hf y (by simp [hy])

/-- No course holds a request that is not allowed. -/
theorem Follows.bounded {p : Program I α} {log : List (Exchange I)} {a : α} (h : Follows p log a)
    (hp : p.Bounded allowed) : ∀ x ∈ log, allowed x.request := by
  induction h with
  | done => simp
  | ask _ ih =>
    intro x hx
    rcases List.mem_cons.mp hx with rfl | hx
    · exact hp.1
    · exact ih (hp.2 _) x hx
  | again | leave => exact hp.elim

/-- On a device that always answers it ends with a value, however few rounds a loop is allowed. -/
theorem Bounded.run {p : Program I α} (hp : p.Bounded allowed) (n : Nat)
    (device : Device I Empty δ) (d : δ) : ∃ a d', p.run n device d = .ok a d' := by
  induction p generalizing d with
  | done a => exact ⟨a, d, rfl⟩
  | fault | loop => exact hp.elim
  | ask r next ih =>
    simp only [Program.run]
    cases device r d with
    | ok x d' => exact ih x (hp.2 x) d'
    | error e d' => exact e.elim

/-- And all that it asks such a device for is allowed. -/
theorem Bounded.ends {p : Program I α} (hp : p.Bounded allowed) (device : Device I Empty δ) (d : δ) :
    ∃ a d' log, Ends device.recorded p (d, []) (.ok a (d', log)) ∧ ∀ x ∈ log, allowed x.request := by
  obtain ⟨a, ⟨d', log⟩, ran⟩ := hp.run 0 device.recorded (d, [])
  obtain ⟨course, rfl, follows⟩ := run_recorded ran
  exact ⟨a, d', _, ⟨settled_ok _ _, 0, ran⟩, follows.bounded hp⟩

end Bounded

end Program

end BoardSupport

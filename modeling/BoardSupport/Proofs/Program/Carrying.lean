import BoardSupport.Proofs.Program.Beginning

/-! Programs of one interface carried out on another. What passes below is what passes above, with each
exchange spelt out by the program that carries it (`follows_interpret`). -/
namespace BoardSupport.Program

section Layers

variable {I J K : Interface} {α : Type}

/-- A request alone is carried out by its program. -/
theorem interpret_call (via : (r : I.Request) → Program J (I.Reply r)) (r : I.Request) :
    (call r).interpret via = via r := bind_pure (via r)

/-- Steps over a list are carried out one after another. -/
theorem interpret_forM {σ : Type} (via : (r : I.Request) → Program J (I.Reply r)) (list : List σ)
    (f : σ → Program I PUnit) : (list.forM f).interpret via = list.forM fun x => (f x).interpret via := by
  induction list with
  | nil => rfl
  | cons x rest ih =>
    change (f x >>= fun _ => rest.forM f).interpret via = _
    rw [interpret_bind, ih]
    rfl

/-- Two layers are one. -/
theorem interpret_interpret (via : (r : I.Request) → Program J (I.Reply r))
    (below : (r : J.Request) → Program K (J.Reply r)) (p : Program I α) :
    (p.interpret via).interpret below = p.interpret fun r => (via r).interpret below := by
  induction p with
  | done | fault => rfl
  | ask r next ih => simp only [interpret, interpret_bind, ih]
  | loop body s next ihBody ih => simp only [interpret, ihBody, ih]

end Layers

variable {I J : Interface} {α : Type} {via : (r : I.Request) → Program J (I.Reply r)}

/-- What is bounded above is bounded below if each request allowed there is carried out so. -/
theorem Bounded.interpret {above : I.Request → Prop} {below : J.Request → Prop} {p : Program I α}
    (hp : p.Bounded above) (carried : ∀ r, above r → (via r).Bounded below) :
    (p.interpret via).Bounded below := by
  induction p with
  | done => trivial
  | fault | loop => exact hp.elim
  | ask r next ih => exact (carried r hp.1).bind fun x => ih x (hp.2 x)

/-- Below passes what carries out the exchanges above, one after another. -/
inductive Carries (via : (r : I.Request) → Program J (I.Reply r)) :
    List (Exchange I) → List (Exchange J) → Prop
  | nil : Carries via [] []
  | cons {x : Exchange I} {course : List (Exchange I)} {part log : List (Exchange J)}
      (here : Follows (via x.request) part x.reply) (rest : Carries via course log) :
      Carries via (x :: course) (part ++ log)

theorem carries_append {first second : List (Exchange I)} {log : List (Exchange J)} :
    Carries via (first ++ second) log ↔
      ∃ before after, log = before ++ after ∧ Carries via first before ∧ Carries via second after := by
  constructor
  · intro h
    induction first generalizing log with
    | nil => exact ⟨[], log, rfl, .nil, h⟩
    | cons x first ih =>
      cases h with
      | cons here rest =>
        obtain ⟨before, after, rfl, head, tail⟩ := ih rest
        exact ⟨_, after, (List.append_assoc ..).symm, .cons here head, tail⟩
  · rintro ⟨before, after, rfl, head, tail⟩
    induction head with
    | nil => exact tail
    | cons here _ ih =>
      rw [List.append_assoc]
      exact .cons here ih

private theorem carries_of_follows {p : Program I α} {log : List (Exchange J)} {a : α}
    (h : Follows (p.interpret via) log a) : ∃ course, Follows p course a ∧ Carries via course log := by
  induction p generalizing log with
  | done =>
    obtain ⟨rfl, rfl⟩ := follows_done.mp h
    exact ⟨[], .done _, .nil⟩
  | fault => cases h
  | ask r next ih =>
    obtain ⟨x, part, log, rfl, here, rest⟩ := follows_bind.mp h
    obtain ⟨course, follows, carries⟩ := ih x rest
    exact ⟨⟨r, x⟩ :: course, .ask follows, .cons here carries⟩
  | loop body s next ihBody ih =>
    obtain ⟨b, rounds, log, rfl, looped, rest⟩ := follows_loop.mp h
    obtain ⟨course, follows, carries⟩ := ih b rest
    have inner : ∃ course, Follows (iterate body s) course b ∧ Carries via course rounds := by
      apply Follows.rounds _ _ looped
      · intro s round b once
        obtain ⟨course, follows, carries⟩ := ihBody s once
        exact ⟨course, follows.last, carries⟩
      · rintro s s' round log b once ⟨rest, looped, below⟩
        obtain ⟨course, follows, carries⟩ := ihBody s once
        exact ⟨course ++ rest, .again follows looped, carries_append.mpr ⟨_, _, rfl, carries, below⟩⟩
    obtain ⟨first, followsFirst, carriesFirst⟩ := inner
    exact ⟨first ++ course, follows_loop.mpr ⟨b, first, course, rfl, followsFirst, follows⟩,
      carries_append.mpr ⟨_, _, rfl, carriesFirst, carries⟩⟩

private theorem follows_of_carries {p : Program I α} {course : List (Exchange I)}
    {log : List (Exchange J)} {a : α} (h : Follows p course a) (carries : Carries via course log) :
    Follows (p.interpret via) log a := by
  induction h generalizing log with
  | done =>
    cases carries
    exact .done _
  | ask _ ih =>
    cases carries with
    | cons here below => exact follows_bind.mpr ⟨_, _, _, rfl, here, ih below⟩
  | again _ _ ihOnce ihRest =>
    obtain ⟨before, after, rfl, here, below⟩ := carries_append.mp carries
    exact .again (ihOnce here) (ihRest below)
  | leave _ _ ihOnce ihRest =>
    obtain ⟨before, after, rfl, here, below⟩ := carries_append.mp carries
    exact .leave (ihOnce here) (ihRest below)

theorem follows_interpret {p : Program I α} {log : List (Exchange J)} {a : α} :
    Follows (p.interpret via) log a ↔ ∃ course, Follows p course a ∧ Carries via course log := by
  constructor
  · exact carries_of_follows
  · rintro ⟨course, follows, carries⟩
    exact follows_of_carries follows carries

/-- Where each request becomes one below, what passes there is what passes above, renamed. -/
theorem follows_renamed {rename : Exchange I → Exchange J}
    (one : ∀ r part x, Follows (via r) part x ↔ part = [rename ⟨r, x⟩]) {p : Program I α}
    {log : List (Exchange J)} {a : α} :
    Follows (p.interpret via) log a ↔ ∃ course, Follows p course a ∧ log = course.map rename := by
  have carries (course : List (Exchange I)) (log : List (Exchange J)) :
      Carries via course log ↔ log = course.map rename := by
    constructor
    · intro h
      induction h with
      | nil => rfl
      | cons here _ ih =>
        obtain rfl := (one _ _ _).mp here
        rw [ih]
        rfl
    · rintro rfl
      induction course with
      | nil => exact .nil
      | cons x course ih => exact .cons ((one _ _ _).mpr rfl) ih
  simp only [follows_interpret, carries]

/-- And so of what has passed by some moment. -/
theorem begins_renamed {rename : Exchange I → Exchange J}
    (one : ∀ r part x, Follows (via r) part x ↔ part = [rename ⟨r, x⟩])
    (begun : ∀ r part, Begins (via r) part → part = [] ∨ ∃ x, part = [rename ⟨r, x⟩]) {p : Program I α}
    {log : List (Exchange J)} :
    Begins (p.interpret via) log ↔ ∃ course, Begins p course ∧ log = course.map rename := by
  constructor
  · intro h
    induction p generalizing log with
    | done | fault =>
      cases h
      exact ⟨[], .nil _, rfl⟩
    | ask r next ih =>
      rcases begins_bind.mp h with within | ⟨x, part, log, rfl, here, rest⟩
      · rcases begun r log within with rfl | ⟨x, rfl⟩
        · exact ⟨[], .nil _, rfl⟩
        · exact ⟨[⟨r, x⟩], .ask (.nil _), rfl⟩
      · obtain rfl := (one r part x).mp here
        obtain ⟨course, begins, rfl⟩ := ih x rest
        exact ⟨⟨r, x⟩ :: course, .ask begins, rfl⟩
    | loop body s next ihBody ih =>
      rcases begins_loop.mp h with within | ⟨b, rounds, log, rfl, looped, rest⟩
      · have inner : ∃ course, Begins (iterate body s) course ∧ log = course.map rename := by
          apply Begins.rounds _ _ within
          · intro s log once
            obtain ⟨course, begins, rfl⟩ := ihBody s once
            exact ⟨course, .inside begins, rfl⟩
          · rintro s s' round log once ⟨rest, begins, rfl⟩
            obtain ⟨course, follows, rfl⟩ := (follows_renamed one).mp once
            exact ⟨course ++ rest, .again follows begins, List.map_append.symm⟩
        obtain ⟨course, begins, rfl⟩ := inner
        exact ⟨course, begins_loop.mpr (.inl begins), rfl⟩
      · obtain ⟨first, follows, rfl⟩ := (follows_renamed (p := iterate body s) one).mp looped
        obtain ⟨course, begins, rfl⟩ := ih b rest
        exact ⟨first ++ course, begins_loop.mpr (.inr ⟨b, first, course, rfl, follows, begins⟩),
          List.map_append.symm⟩
  · rintro ⟨course, begins, rfl⟩
    induction begins with
    | nil => exact .nil _
    | ask _ ih => exact begins_bind.mpr (.inr ⟨_, _, _, rfl, (one _ _ _).mpr rfl, ih⟩)
    | inside _ ih => exact .inside ih
    | again once _ ih =>
      rw [List.map_append]
      exact .again ((follows_renamed one).mpr ⟨_, once, rfl⟩) ih
    | leave once _ ih =>
      rw [List.map_append]
      exact .leave ((follows_renamed one).mpr ⟨_, once, rfl⟩) ih

end BoardSupport.Program

import BoardSupport.Proofs.Program.Beginning
import BoardSupport.Proofs.Program.Ending

/-! Programs that may fail with an error of their own: the courses they take, how they end, and loops
over a list of them. -/
namespace BoardSupport.Program

section Courses

variable {I : Interface} {α β E : Type} {p : ExceptT E (Program I) α}
  {f : α → ExceptT E (Program I) β} {log : List (Exchange I)}

/-- A program in sequence with another ends with the error of the first, or runs on. -/
theorem follows_session_bind {r : Except E β} :
    Follows (p >>= f).run log r ↔ (∃ e, r = .error e ∧ Follows p.run log (.error e)) ∨
      ∃ a first second, log = first ++ second ∧ Follows p.run first (.ok a) ∧
        Follows (f a).run second r := by
  rw [ExceptT.run_bind, follows_bind]
  constructor
  · rintro ⟨result, first, second, rfl, h, rest⟩
    cases result with
    | ok a => exact .inr ⟨a, first, second, rfl, h, rest⟩
    | error e =>
      obtain ⟨rfl, rfl⟩ := follows_done.mp rest
      exact .inl ⟨e, rfl, by rwa [List.append_nil]⟩
  · rintro (⟨e, rfl, h⟩ | ⟨a, first, second, rfl, h, rest⟩)
    · exact ⟨.error e, log, [], (List.append_nil log).symm, h, .done _⟩
    · exact ⟨.ok a, first, second, rfl, h, rest⟩

theorem follows_lift {p : Program I α} {r : Except E α} :
    Follows (ExceptT.lift p).run log r ↔ ∃ a, r = .ok a ∧ Follows p log a := by
  change Follows (p >>= fun a => .done (.ok a)) log r ↔ _
  rw [follows_bind]
  constructor
  · rintro ⟨a, first, second, rfl, h, ended⟩
    obtain ⟨rfl, rfl⟩ := follows_done.mp ended
    exact ⟨a, rfl, by rwa [List.append_nil]⟩
  · rintro ⟨a, rfl, h⟩
    exact ⟨a, log, [], (List.append_nil log).symm, h, .done _⟩

variable {allowed : I.Request → Prop}

theorem bounded_session_bind (hp : p.run.Bounded allowed) (hf : ∀ a, (f a).run.Bounded allowed) :
    (p >>= f).run.Bounded allowed := by
  rw [ExceptT.run_bind]
  refine hp.bind fun result => ?_
  cases result with
  | ok a => exact hf a
  | error e => trivial

theorem bounded_lift {p : Program I α} (hp : p.Bounded allowed) :
    (ExceptT.lift p : ExceptT E (Program I) α).run.Bounded allowed := hp.bind fun _ => trivial

theorem bounded_session_forM {σ : Type} {list : List σ} {f : σ → ExceptT E (Program I) PUnit}
    (hf : ∀ x ∈ list, (f x).run.Bounded allowed) : (list.forM f).run.Bounded allowed := by
  induction list with
  | nil => trivial
  | cons x rest ih =>
    rw [List.forall_mem_cons] at hf
    exact bounded_session_bind hf.1 fun _ => ih hf.2

end Courses

namespace Ends

variable {I : Interface} {ε δ σ α β E : Type} {device : Device I ε δ} {d d' : δ}
  {p : ExceptT E (Program I) α} {f : α → ExceptT E (Program I) β}

/-- A part that succeeds is followed by the rest. -/
theorem proceed {a : α} {r : EStateM.Result (Halt ε) δ (Except E β)}
    (first : Ends device p.run d (.ok (.ok a) d')) (rest : Ends device (f a).run d' r) :
    Ends device (p >>= f).run d r := by
  rw [ExceptT.run_bind]
  exact first.bind rest

/-- A part that fails ends the whole. -/
theorem stop {e : E} (first : Ends device p.run d (.ok (.error e) d')) :
    Ends device (p >>= f).run d (.ok (.error e) d') := by
  rw [ExceptT.run_bind]
  exact first.bind (done _ _)

theorem succeed (a : α) (d : δ) : Ends device (pure a : ExceptT E (Program I) α).run d (.ok (.ok a) d) :=
  done _ _

theorem fail (e : E) (d : δ) :
    Ends device (throw e : ExceptT E (Program I) α).run d (.ok (.error e) d) := done _ _

/-- A step that keeps an invariant, or fails with an error of some kind, makes a loop that ends in
the invariant or with such an error. The invariant may speak of the part of the list that is done. -/
theorem forM {body : σ → ExceptT E (Program I) PUnit} (inv : List σ → δ → Prop) (bad : E → Prop)
    {xs : List σ} (start : inv [] d)
    (step : ∀ before x after d, xs = before ++ x :: after → inv before d →
      (∃ d', Ends device (body x).run d (.ok (.ok ⟨⟩) d') ∧ inv (before ++ [x]) d') ∨
        ∃ e d', Ends device (body x).run d (.ok (.error e) d') ∧ bad e) :
    (∃ d', Ends device (xs.forM body).run d (.ok (.ok ⟨⟩) d') ∧ inv xs d') ∨
      ∃ e d', Ends device (xs.forM body).run d (.ok (.error e) d') ∧ bad e := by
  -- Of the whole list, `before` is done and `rest` is still to come.
  have tail : ∀ rest before d, xs = before ++ rest → inv before d →
      (∃ d', Ends device (rest.forM body).run d (.ok (.ok ⟨⟩) d') ∧ inv xs d') ∨
        ∃ e d', Ends device (rest.forM body).run d (.ok (.error e) d') ∧ bad e := by
    intro rest
    induction rest with
    | nil =>
      intro before d whole kept
      rw [List.append_nil] at whole
      exact .inl ⟨d, succeed _ _, whole ▸ kept⟩
    | cons x rest ih =>
      intro before d whole kept
      rcases step before x rest d whole kept with ⟨mid, here, kept'⟩ | ⟨e, d', here, failed⟩
      · have whole' : xs = (before ++ [x]) ++ rest := by simp [whole]
        rcases ih (before ++ [x]) mid whole' kept' with ⟨d', later, all⟩ | ⟨e, d', later, failed⟩
        · exact .inl ⟨d', here.proceed later, all⟩
        · exact .inr ⟨e, d', here.proceed later, failed⟩
      · exact .inr ⟨e, d', here.stop, failed⟩
  exact tail xs [] d rfl start

/-- Steps that all succeed and keep an invariant make a loop that does. -/
theorem forM_ok {body : σ → ExceptT E (Program I) PUnit} (inv : List σ → δ → Prop) {xs : List σ}
    (start : inv [] d)
    (step : ∀ before x after d, xs = before ++ x :: after → inv before d →
      ∃ d', Ends device (body x).run d (.ok (.ok ⟨⟩) d') ∧ inv (before ++ [x]) d') :
    ∃ d', Ends device (xs.forM body).run d (.ok (.ok ⟨⟩) d') ∧ inv xs d' := by
  refine (forM inv (fun _ => False) start ?_).elim id ?_
  · intro before x after d split kept
    exact .inl (step before x after d split kept)
  · rintro ⟨_, _, _, impossible⟩
    exact impossible.elim

/-- Steps that fail exactly where something is bad make a loop that fails at the first such place. An
invariant that the others keep holds in the end if there is none. -/
theorem forM_find {body : σ → ExceptT E (Program I) PUnit} (inv : δ → Prop) (bad : σ → Bool)
    (fault : σ → E) {xs : List σ} (start : inv d)
    (step : ∀ x ∈ xs, ∀ d, inv d →
      (∃ d', bad x = false ∧ Ends device (body x).run d (.ok (.ok ⟨⟩) d') ∧ inv d') ∨
        ∃ d', bad x = true ∧ Ends device (body x).run d (.ok (.error (fault x)) d')) :
    (∃ d', xs.find? bad = none ∧ Ends device (xs.forM body).run d (.ok (.ok ⟨⟩) d') ∧ inv d') ∨
      ∃ x d', xs.find? bad = some x ∧ Ends device (xs.forM body).run d (.ok (.error (fault x)) d') := by
  induction xs generalizing d with
  | nil => exact .inl ⟨d, rfl, succeed _ _, start⟩
  | cons x xs ih =>
    rcases step x List.mem_cons_self d start with ⟨mid, good, here, kept⟩ | ⟨d', found, here⟩
    · rw [List.find?_cons_of_neg (by simp [good])]
      rcases ih kept (fun y mem => step y (List.mem_cons_of_mem x mem)) with
        ⟨d', none, rest, kept'⟩ | ⟨y, d', first, rest⟩
      · exact .inl ⟨d', none, here.proceed rest, kept'⟩
      · exact .inr ⟨y, d', first, here.proceed rest⟩
    · exact .inr ⟨x, d', List.find?_cons_of_pos found, here.stop⟩

/-- The same where no step changes the device. -/
theorem forM_find_same {body : σ → ExceptT E (Program I) PUnit} (bad : σ → Bool) (fault : σ → E)
    {xs : List σ}
    (step : ∀ x ∈ xs, (bad x = false ∧ Ends device (body x).run d (.ok (.ok ⟨⟩) d)) ∨
      (bad x = true ∧ Ends device (body x).run d (.ok (.error (fault x)) d))) :
    (xs.find? bad = none ∧ Ends device (xs.forM body).run d (.ok (.ok ⟨⟩) d)) ∨
      ∃ x d', xs.find? bad = some x ∧ Ends device (xs.forM body).run d (.ok (.error (fault x)) d') := by
  refine (forM_find (· = d) bad fault rfl ?_).imp_left ?_
  · rintro x mem _ rfl
    rcases step x mem with ⟨good, ends⟩ | ⟨found, ends⟩
    · exact .inl ⟨_, good, ends, rfl⟩
    · exact .inr ⟨_, found, ends⟩
  · rintro ⟨_, none, ends, rfl⟩
    exact ⟨none, ends⟩

/-- A loop over the numbers below `n` in ascending order, with an invariant that may speak of how many
are done. -/
theorem forM_range {body : Nat → ExceptT E (Program I) PUnit} (inv : Nat → δ → Prop)
    (bad : E → Prop) {n : Nat} (start : inv 0 d)
    (step : ∀ k < n, ∀ d, inv k d →
      (∃ d', Ends device (body k).run d (.ok (.ok ⟨⟩) d') ∧ inv (k + 1) d') ∨
        ∃ e d', Ends device (body k).run d (.ok (.error e) d') ∧ bad e) :
    (∃ d', Ends device ((List.range n).forM body).run d (.ok (.ok ⟨⟩) d') ∧ inv n d') ∨
      ∃ e d', Ends device ((List.range n).forM body).run d (.ok (.error e) d') ∧ bad e := by
  have loop : (∃ d', Ends device ((List.range n).forM body).run d (.ok (.ok ⟨⟩) d') ∧
        inv (List.range n).length d') ∨
      ∃ e d', Ends device ((List.range n).forM body).run d (.ok (.error e) d') ∧ bad e := by
    refine forM (fun before => inv before.length) bad start ?_
    intro before x after d split kept
    have bound : before.length < n := by
      have lengths := congrArg List.length split
      simp at lengths
      omega
    have here : before.length = x := by
      have element := congrArg (fun xs => xs[before.length]?) split
      simpa [bound] using element
    subst here
    rw [List.length_append, List.length_singleton]
    exact step before.length bound d kept
  rwa [List.length_range] at loop

end Ends

end BoardSupport.Program

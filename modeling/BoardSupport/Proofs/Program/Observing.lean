import BoardSupport.Proofs.Program.Beginning

/-! What an observer notes of a program on a device. `Shows` is about programs that end once the device lets
them, and goes through a sequence part by part (`Shows.bind`). `ShowsOn` is about programs that never end:
one that shows its tale in each round goes on and on through all of them (`showsOn_forever`). -/
namespace BoardSupport

open Program

/-- One who notes some of what passes and sees some of what a device is like. From a lively device come the
replies that programs wait for. -/
structure Observer (I : Interface) (δ ω ι : Type) where
  note : Exchange I → Option ω
  view : δ → ι
  lively : δ → Prop

namespace Observer

variable {I : Interface} {ε δ σ ω ι α β : Type}

def notes (o : Observer I δ ω ι) (log : List (Exchange I)) : List ω := log.filterMap o.note

/-- However the device answers that looks like `before`, no more is noted than `tale`, and by the end of the
program just that. How it ends and what the device then looks like satisfies `post`. On a lively device it
does end, and the device is still lively. -/
structure Shows (o : Observer I δ ω ι) (device : Device I ε δ) (p : Program I α) (before : ι) (tale : List ω)
    (post : α → ι → Prop) : Prop where
  begun : ∀ {d d' log}, o.view d = before → Begins p log → device.Answers d log d' → o.notes log <+: tale
  done : ∀ {d d' log a}, o.view d = before → Follows p log a → device.Answers d log d' →
    o.notes log = tale ∧ post a (o.view d')
  ends : ∀ {d}, o.view d = before → o.lively d →
    ∃ log a d', Follows p log a ∧ device.Answers d log d' ∧ o.lively d'

/-- However the device answers that looks like `before`, no more is noted than some stage of `story`. On a
lively device each stage comes. -/
structure ShowsOn (o : Observer I δ ω ι) (device : Device I ε δ) (p : Program I α) (before : ι)
    (story : Nat → List ω) : Prop where
  begun : ∀ {d d' log}, o.view d = before → Begins p log → device.Answers d log d' →
    ∃ n, o.notes log <+: story n
  comes : ∀ {d}, o.view d = before → o.lively d →
    ∀ n, ∃ log d', Begins p log ∧ device.Answers d log d' ∧ o.notes log = story n

/-- The one value, and a device that looks like this. -/
def Leaves (a : α) (i : ι) : α → ι → Prop := fun b j => b = a ∧ j = i

variable {o : Observer I δ ω ι} {device : Device I ε δ}

theorem notes_append (first second : List (Exchange I)) :
    o.notes (first ++ second) = o.notes first ++ o.notes second := List.filterMap_append

section Ending

variable {p : Program I α} {f : α → Program I β} {i j : ι} {a : α} {tale first second : List ω}
  {post : α → ι → Prop} {post' : β → ι → Prop}

theorem shows_done (h : post a i) : o.Shows device (.done a) i [] post where
  begun := by
    rintro d d' log - nothing -
    obtain rfl := begins_done.mp nothing
    exact List.prefix_rfl
  done := by
    rintro d d' log b rfl ended answered
    obtain ⟨rfl, rfl⟩ := follows_done.mp ended
    obtain rfl := answers_nil.mp answered
    exact ⟨rfl, h⟩
  ends := fun {d} _ lively => ⟨[], a, d, .done a, .nil d, lively⟩

/-- One part after another. -/
theorem Shows.bind (h : o.Shows device p i first post)
    (later : ∀ a j, post a j → o.Shows device (f a) j second post') :
    o.Shows device (p >>= f) i (first ++ second) post' where
  begun := by
    rintro d d' log seen begun answered
    rcases begins_bind.mp begun with within | ⟨a, early, late, rfl, ended, rest⟩
    · exact (h.begun seen within answered).trans (List.prefix_append ..)
    · obtain ⟨mid, here, there⟩ := answers_append.mp answered
      obtain ⟨noted, left⟩ := h.done seen ended here
      rw [notes_append, noted]
      exact (List.prefix_append_right_inj first).mpr ((later a _ left).begun rfl rest there)
  done := by
    rintro d d' log b seen ended answered
    obtain ⟨a, early, late, rfl, ended, rest⟩ := follows_bind.mp ended
    obtain ⟨mid, here, there⟩ := answers_append.mp answered
    obtain ⟨noted, left⟩ := h.done seen ended here
    obtain ⟨noted', left'⟩ := (later a _ left).done rfl rest there
    rw [notes_append, noted, noted']
    exact ⟨rfl, left'⟩
  ends := by
    rintro d seen lively
    obtain ⟨early, a, mid, ended, here, lively⟩ := h.ends seen lively
    obtain ⟨late, b, d', rest, there, lively⟩ := (later a _ (h.done seen ended here).2).ends rfl lively
    exact ⟨early ++ late, b, d', follows_bind.mpr ⟨a, early, late, rfl, ended, rest⟩,
      answers_append.mpr ⟨mid, here, there⟩, lively⟩

/-- A part that leaves one value, and then what is done with that. -/
theorem Shows.andThen (h : o.Shows device p i first (Leaves a j)) (later : o.Shows device (f a) j second post') :
    o.Shows device (p >>= f) i (first ++ second) post' := by
  refine h.bind ?_
  rintro _ _ ⟨rfl, rfl⟩
  exact later

/-- A part that is neither noted nor seen, and then what is done with whatever it found. -/
theorem Shows.quietly (h : o.Shows device p i [] fun _ j => j = i)
    (later : ∀ a, o.Shows device (f a) i second post') : o.Shows device (p >>= f) i second post' := by
  refine h.bind fun a j same => ?_
  rw [same]
  exact later a

/-- Over a list, the tales of its elements. -/
theorem shows_forM {list : List σ} {g : σ → Program I PUnit} {tale : σ → List ω}
    (each : ∀ x ∈ list, o.Shows device (g x) i (tale x) (Leaves ⟨⟩ i)) :
    o.Shows device (list.forM g) i (list.flatMap tale) (Leaves ⟨⟩ i) := by
  induction list with
  | nil => exact shows_done ⟨rfl, rfl⟩
  | cons x rest ih =>
    rw [List.forall_mem_cons] at each
    rw [List.flatMap_cons]
    exact each.1.andThen (ih each.2)

/-- Nothing over a list of what is not noted. -/
theorem shows_forM_quiet {list : List σ} {g : σ → Program I PUnit}
    (each : ∀ x ∈ list, o.Shows device (g x) i [] (Leaves ⟨⟩ i)) :
    o.Shows device (list.forM g) i [] (Leaves ⟨⟩ i) := by
  have quiet : list.flatMap (fun _ => ([] : List ω)) = [] := List.flatMap_eq_nil_iff.mpr fun _ _ => rfl
  rw [← quiet]
  exact shows_forM each

end Ending

section Unending

variable {p : Program I α} {f : α → Program I β} {i j : ι} {a : α} {first : List ω} {story : Nat → List ω}

theorem ShowsOn.after (later : o.ShowsOn device (f a) j story) (h : o.Shows device p i first (Leaves a j)) :
    o.ShowsOn device (p >>= f) i fun n => first ++ story n where
  begun := by
    rintro d d' log seen begun answered
    rcases begins_bind.mp begun with within | ⟨b, early, late, rfl, ended, rest⟩
    · exact ⟨0, (h.begun seen within answered).trans (List.prefix_append ..)⟩
    · obtain ⟨mid, here, there⟩ := answers_append.mp answered
      obtain ⟨noted, rfl, left⟩ := h.done seen ended here
      obtain ⟨n, part⟩ := later.begun left rest there
      refine ⟨n, ?_⟩
      rw [notes_append, noted]
      exact (List.prefix_append_right_inj first).mpr part
  comes := by
    rintro d seen lively n
    obtain ⟨early, b, mid, ended, here, lively⟩ := h.ends seen lively
    obtain ⟨noted, rfl, left⟩ := h.done seen ended here
    obtain ⟨late, d', rest, there, noted'⟩ := later.comes left lively n
    refine ⟨early ++ late, d', begins_bind.mpr (.inr ⟨b, early, late, rfl, ended, rest⟩),
      answers_append.mpr ⟨mid, here, there⟩, ?_⟩
    rw [notes_append, noted, noted']

variable {step : σ → Program I σ} {s : Nat → σ} {view : Nat → ι} {tale : Nat → List ω}

private theorem follows_onward {s s' : σ} {log : List (Exchange I)} :
    Follows (Sum.inl <$> step s : Program I (σ ⊕ Empty)) log (.inl s') ↔ Follows (step s) log s' := by
  rw [← bind_pure_comp, follows_bind]
  constructor
  · rintro ⟨t, part, rest, rfl, ended, nothing⟩
    obtain ⟨rfl, same⟩ := follows_done.mp nothing
    cases same
    rwa [List.append_nil]
  · intro ended
    exact ⟨s', log, [], (List.append_nil log).symm, ended, .done _⟩

private theorem begins_onward {s : σ} {log : List (Exchange I)}
    (h : Begins (Sum.inl <$> step s : Program I (σ ⊕ Empty)) log) : Begins (step s) log := by
  rw [← bind_pure_comp] at h
  rcases begins_bind.mp h with within | ⟨t, part, rest, rfl, ended, nothing⟩
  · exact within
  · obtain rfl := begins_done.mp nothing
    rw [List.append_nil]
    exact ended.begins

private theorem forever_begun
    (round : ∀ n, o.Shows device (step (s n)) (view n) (tale n) (Leaves (s (n + 1)) (view (n + 1))))
    {k : Nat} {d d' : δ} {log : List (Exchange I)} (seen : o.view d = view k)
    (begun : Begins (forever step (s k)) log) (answered : device.Answers d log d') :
    ∃ n, o.notes log <+: (List.range' k n).flatMap tale := by
  -- The rounds before count up as the loop goes on, so the claim is about any number of them.
  refine Begins.rounds (motive := fun t log => ∀ k d, t = s k → o.view d = view k → device.Answers d log d' →
    ∃ n, o.notes log <+: (List.range' k n).flatMap tale) ?_ ?_ begun k d rfl seen answered
  · rintro _ log begun k d rfl seen answered
    refine ⟨1, ?_⟩
    simpa using (round k).begun seen (begins_onward begun) answered
  · rintro _ t early late once ih k d rfl seen answered
    obtain ⟨mid, here, there⟩ := answers_append.mp answered
    obtain ⟨noted, rfl, left⟩ := (round k).done seen (follows_onward.mp once) here
    obtain ⟨n, part⟩ := ih (k + 1) mid rfl left there
    refine ⟨n + 1, ?_⟩
    rw [notes_append, noted, List.range'_succ, List.flatMap_cons]
    exact (List.prefix_append_right_inj _).mpr part

private theorem forever_comes
    (round : ∀ n, o.Shows device (step (s n)) (view n) (tale n) (Leaves (s (n + 1)) (view (n + 1))))
    (k n : Nat) {d : δ} (seen : o.view d = view k) (lively : o.lively d) :
    ∃ log d', Begins (forever step (s k)) log ∧ device.Answers d log d' ∧
      o.notes log = (List.range' k n).flatMap tale := by
  induction n generalizing k d with
  | zero => exact ⟨[], d, .nil _, .nil d, rfl⟩
  | succ n ih =>
    obtain ⟨early, t, mid, ended, here, lively⟩ := (round k).ends seen lively
    obtain ⟨noted, rfl, left⟩ := (round k).done seen ended here
    obtain ⟨late, d', rest, there, noted'⟩ := ih (k + 1) left lively
    refine ⟨early ++ late, d', .again (follows_onward.mpr ended) rest, answers_append.mpr ⟨mid, here, there⟩, ?_⟩
    rw [notes_append, noted, noted', List.range'_succ, List.flatMap_cons]

/-- Rounds that each show their tale, one after another without end. -/
theorem showsOn_forever
    (round : ∀ n, o.Shows device (step (s n)) (view n) (tale n) (Leaves (s (n + 1)) (view (n + 1)))) :
    o.ShowsOn device (forever step (s 0)) (view 0) fun n => (List.range n).flatMap tale where
  begun := by
    intro d d' log seen begun answered
    simp only [List.range_eq_range']
    exact forever_begun round seen begun answered
  comes := by
    intro d seen lively n
    simp only [List.range_eq_range']
    exact forever_comes round 0 n seen lively

end Unending

end Observer

end BoardSupport

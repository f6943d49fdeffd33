import BoardSupport.Proofs.SdCard.Marks

/-! The discipline that every history of a card keeps: what is known of the card, how fast its clock
runs, when blocks move, and how chip select and the bytes around it go together. -/
namespace BoardSupport.SdCard

open Spi Program

/-- How the latest bring-up ended. -/
def latestBringUp (entries : List Entry) : Option (Except SdError Kind) :=
  (entries.filterMap Entry.bringUp?).getLast?

/-- The kind that the driver takes a card for that was fresh at first. -/
def kindAfter (entries : List Entry) : Option Kind := (latestBringUp entries).bind Except.toOption

/-- The clock dividers that were set. -/
def throttles (requests : List Channel.Request) : List UInt8 :=
  requests.filterMap fun | .throttle clocks => some clocks | _ => none

/-- What was asked of the lines, as against the clock divider and time. -/
def lineRequests (requests : List Channel.Request) : List Channel.Request :=
  requests.filter fun | .throttle _ | .delay _ => false | _ => true

/-- What holds of the entries of every history and the card at its end. -/
structure Disciplined (entries : List Entry) (card : SdCard) : Prop where
  /-- The kind is known exactly if the latest bring-up found it. -/
  kind : card.kind = kindAfter entries
  /-- After a bring-up the clock is at full speed exactly if the kind is known. -/
  throttle : latestBringUp entries ≠ none → (throttles (entries.flatMap Entry.requests)).getLast? =
    some (if card.kind.isSome then throttleRun else throttleInit)
  /-- No block moves to or from a card of unknown kind, nor while a bring-up makes it unknown. -/
  no_transfer : ∀ before e after, entries = before ++ e :: after →
    kindAfter before = none ∨ e.operation = .init → ∀ r ∈ e.requests, StartsNoTransfer r
  /-- From each selection to the next the card is released once, and once more for each bring-up
  that begins in between. -/
  paired : ∀ before after, entries.flatMap Entry.marks = before ++ .asks .select :: after →
    releases (untilSelect after) = 1 + bringUps (untilSelect after)
  /-- An operation that selects the card ends with a release and a byte of idle clocks. -/
  ends_released : ∀ e ∈ entries, .select ∈ e.requests →
    [.deselect, .write 0xFF] <:+ lineRequests e.requests
  released : selectedAfter (entries.flatMap Entry.marks) = false
  /-- An unselected card sees nothing but idle clocks. -/
  quiet : ∀ before m after, entries.flatMap Entry.marks = before ++ m :: after →
    selectedAfter before = false → m.Idle

section Requests

variable {log : List (Exchange Channel)}

private theorem throttles_eq_nil (h : ∀ x ∈ log, ∀ clocks, x.request ≠ .throttle clocks) :
    throttles (log.map (·.request)) = [] := by
  rw [throttles, List.filterMap_eq_nil_iff]
  intro r hr
  obtain ⟨x, hx, rfl⟩ := List.mem_map.mp hr
  split
  · exact absurd ‹_› (h x hx _)
  · rfl

private theorem throttles_of_clocks (h : ∀ x ∈ log, Clocks x.request) :
    throttles (log.map (·.request)) = [] :=
  throttles_eq_nil fun x hx clocks same => by
    rcases h x hx with other | ⟨ns, other⟩ <;> rw [other] at same <;> cases same

private theorem throttles_of_moves (h : ∀ x ∈ log, MovesByte x.request) :
    throttles (log.map (·.request)) = [] :=
  throttles_eq_nil fun x hx clocks same => by
    rcases h x hx with other | ⟨b, other⟩ <;> rw [other] at same <;> cases same

private theorem throttles_append (first second : List Channel.Request) :
    throttles (first ++ second) = throttles first ++ throttles second := List.filterMap_append

/-- Frames leave the speed as it is. -/
theorem throttles_of_framed (h : Framed log) : throttles (log.map (·.request)) = [] := by
  induction h with
  | nil => rfl
  | wait ns _ ih => exact ih
  | @frame inner log moves _ ih =>
    simp only [frameOf, List.map_append, throttles_append, throttles_of_moves moves, ih]
    rfl

private theorem throttles_of_powerUp {u : Unit} (h : Follows powerUp log u) :
    throttles (log.map (·.request)) = [throttleInit] := by
  obtain ⟨before, after, rfl, lead, trail⟩ := follows_powerUp h
  rw [List.map_cons, List.map_append, List.map_cons]
  change throttleInit :: throttles (before.map (·.request) ++ .deselect :: after.map (·.request)) = _
  rw [throttles_append, throttles_of_clocks lead, List.nil_append]
  change throttleInit :: throttles (after.map (·.request)) = _
  rw [throttles_of_clocks trail]

/-- A bring-up slows the clock down and speeds it up again only if it succeeds. -/
theorem throttles_of_bringUp {r : Except SdError Kind} (h : Follows bringUp.run log r) :
    (throttles (log.map (·.request))).getLast? = some (if r.isOk then throttleRun else throttleInit) := by
  obtain ⟨power, frames, ⟨u, powered⟩, found, rfl⟩ := follows_bringUp h
  simp only [List.map_append, throttles_append, throttles_of_powerUp powered,
    throttles_of_framed (framing_identify.framed found)]
  cases r.isOk <;> rfl

private theorem lineRequests_append (first second : List Channel.Request) :
    lineRequests (first ++ second) = lineRequests first ++ lineRequests second := List.filter_append ..

private theorem select_mem_frameOf (inner : List (Exchange Channel)) :
    .select ∈ (frameOf inner).map (·.request) := by
  simp [frameOf]

private theorem lineRequests_of_framed (h : Framed log) (none : .select ∉ log.map (·.request)) :
    lineRequests (log.map (·.request)) = [] := by
  induction h with
  | nil => rfl
  | wait ns _ ih => exact ih fun mem => none (List.mem_cons_of_mem _ mem)
  | frame moves _ _ =>
    rw [List.map_append] at none
    exact absurd (List.mem_append_left _ (select_mem_frameOf _)) none

private theorem ends_frameOf (inner : List (Exchange Channel)) :
    [.deselect, .write 0xFF] <:+ lineRequests ((frameOf inner).map (·.request)) := by
  rw [frameOf, List.map_append, lineRequests_append]
  exact .trans ⟨[.write 0xFF], rfl⟩ (List.suffix_append ..)

/-- After frames that select the card, the last thing on the lines is a release and idle clocks. -/
theorem ends_of_framed (h : Framed log) (select : .select ∈ log.map (·.request)) :
    [.deselect, .write 0xFF] <:+ lineRequests (log.map (·.request)) := by
  induction h with
  | nil => simp at select
  | wait ns _ ih => exact ih ((List.mem_cons.mp select).resolve_left (by simp))
  | @frame inner log moves frames ih =>
    rw [List.map_append, lineRequests_append]
    by_cases again : .select ∈ log.map (·.request)
    · exact (ih again).trans (List.suffix_append ..)
    · rw [lineRequests_of_framed frames again, List.append_nil]
      exact ends_frameOf inner

private theorem select_not_mem_of_clocks (h : ∀ x ∈ log, Clocks x.request) :
    .select ∉ log.map (·.request) := by
  intro mem
  obtain ⟨x, hx, same⟩ := List.mem_map.mp mem
  rcases h x hx with clocks | ⟨ns, clocks⟩ <;> rw [clocks] at same <;> cases same

private theorem select_not_mem_powerUp {u : Unit} (h : Follows powerUp log u) :
    .select ∉ log.map (·.request) := by
  obtain ⟨before, after, rfl, lead, trail⟩ := follows_powerUp h
  have first := select_not_mem_of_clocks lead
  have last := select_not_mem_of_clocks trail
  simp only [List.map_cons, List.map_append, List.mem_cons, List.mem_append]
  rintro (same | mem | same | mem)
  · cases same
  · exact first mem
  · cases same
  · exact last mem

private theorem ends_of_bringUp {r : Except SdError Kind} (h : Follows bringUp.run log r)
    (select : .select ∈ log.map (·.request)) :
    [.deselect, .write 0xFF] <:+ lineRequests (log.map (·.request)) := by
  obtain ⟨power, frames, ⟨u, powered⟩, found, rfl⟩ := follows_bringUp h
  have inside : .select ∈ frames.map (·.request) := by
    simp only [List.map_append, List.mem_append, select_not_mem_powerUp powered, false_or] at select
    refine select.resolve_right ?_
    cases r.isOk <;> simp
  have ends := ends_of_framed (framing_identify.framed found) inside
  have last : lineRequests ((if r.isOk then [⟨.throttle throttleRun, ()⟩] else [] :
      List (Exchange Channel)).map (·.request)) = [] := by
    cases r.isOk <;> rfl
  simp only [List.map_append, lineRequests_append, last, List.append_nil]
  exact ends.trans (List.suffix_append ..)

end Requests

section Entries

variable {e : Entry} {entries : List Entry} {card card' : SdCard}

private theorem idle_of_clocks {r : Channel.Request} (h : Clocks r) :
    Mark.asks r ≠ .asks .select ∧ (Mark.asks r).Idle := by
  rcases h with rfl | ⟨ns, rfl⟩
  · exact ⟨nofun, rfl⟩
  · exact ⟨nofun, trivial⟩

/-- A bring-up begins with one release of a card that is not selected. -/
private theorem orderly_powerUp {log : List (Exchange Channel)} {u : Unit} (h : Follows powerUp log u) :
    Orderly (.begins .init :: (log.map (·.request)).map .asks) := by
  obtain ⟨before, after, rfl, lead, trail⟩ := follows_powerUp h
  simp only [List.map_cons, List.map_append]
  refine orderly_of_idle ?_ ?_
  · simp only [List.forall_mem_cons, List.forall_mem_append, List.forall_mem_map]
    exact ⟨⟨nofun, trivial⟩, ⟨nofun, trivial⟩, fun x hx => idle_of_clocks (lead x hx),
      ⟨nofun, trivial⟩, fun x hx => idle_of_clocks (trail x hx)⟩
  · rw [← List.forall_mem_map] at lead trail
    have release (r : Channel.Request) (hr : Clocks r) : Mark.asks .deselect ≠ .asks r := by
      rintro ⟨⟩
      rcases hr with hr | ⟨ns, hr⟩ <;> cases hr
    have bringUp (r : Channel.Request) (_ : Clocks r) : Mark.begins .init ≠ .asks r := nofun
    simp only [releases, bringUps, List.count_cons, List.count_append, count_asks lead release,
      count_asks trail release, count_asks lead bringUp, count_asks trail bringUp]
    decide

private theorem orderly_bringUp {log : List (Exchange Channel)} {r : Except SdError Kind}
    (h : Follows bringUp.run log r) :
    Orderly (.begins .init :: (log.map (·.request)).map .asks) := by
  obtain ⟨power, frames, ⟨u, powered⟩, found, rfl⟩ := follows_bringUp h
  have speed : Orderly (((if r.isOk then [⟨.throttle throttleRun, ()⟩] else [] :
      List (Exchange Channel)).map (·.request)).map .asks) := by
    refine orderly_of_idle ?_ ?_ <;> cases r.isOk <;> simp [Mark.Idle, releases, bringUps]
  simp only [List.map_append]
  rw [← List.cons_append, ← List.cons_append]
  exact ((orderly_powerUp powered).append (orderly_of_framed (framing_identify.framed found))).append speed

/-- Every operation keeps order on the wire, whatever comes of it. -/
theorem Entry.Takes.orderly (h : e.Takes card card') : Orderly e.marks := by
  rw [Entry.marks]
  rcases h.cases with ⟨r, init, _, course, _⟩ | ⟨other, _, frames, _⟩
  · rw [init]
    exact orderly_bringUp course
  · rw [← List.singleton_append]
    refine Orderly.append (orderly_of_idle ?_ ?_) (orderly_of_framed frames)
    · simp [Mark.Idle]
    · simp [releases, bringUps, other]

theorem Entry.Takes.kind (h : e.Takes card card') : card'.kind = e.bringUp?.elim card.kind Except.toOption := by
  rcases h.cases with ⟨r, _, ended, _, known⟩ | ⟨_, none, _, same⟩
  · rw [ended, known, Option.elim_some]
  · rw [none, same, Option.elim_none]

/-- The speed that an operation leaves is that of the bring-up, if it is one. -/
theorem Entry.Takes.throttle (h : e.Takes card card') : (throttles e.requests).getLast? =
    e.bringUp?.map fun r => if r.isOk then throttleRun else throttleInit := by
  rcases h.cases with ⟨r, _, ended, course, _⟩ | ⟨_, none, frames, _⟩
  · rw [ended]
    exact throttles_of_bringUp course
  · rw [none, Entry.requests, throttles_of_framed frames]
    rfl

theorem Entry.Takes.ends_released (h : e.Takes card card') (select : .select ∈ e.requests) :
    [.deselect, .write 0xFF] <:+ lineRequests e.requests := by
  rcases h.cases with ⟨r, _, _, course, _⟩ | ⟨_, _, frames, _⟩
  · exact ends_of_bringUp course select
  · exact ends_of_framed frames select

theorem Entry.Takes.no_transfer (h : e.Takes card card') (none : card.kind = none ∨ e.operation = .init) :
    ∀ r ∈ e.requests, StartsNoTransfer r := by
  intro r hr
  obtain ⟨x, hx, rfl⟩ := List.mem_map.mp hr
  exact h.2.bounded (bounded_perform e.operation card) x hx none

end Entries

section Courses

variable {entries : List Entry} {card card' : SdCard}

private theorem latestBringUp_cons (e : Entry) (entries : List Entry) :
    latestBringUp (e :: entries) = (latestBringUp entries).or e.bringUp? := by
  rw [latestBringUp, ← List.singleton_append, List.filterMap_append, List.getLast?_append]
  cases h : e.bringUp? <;> simp [h, latestBringUp]

theorem Course.kind (h : Course card entries card') :
    card'.kind = (latestBringUp entries).elim card.kind Except.toOption := by
  induction h with
  | nil => rfl
  | cons step _ ih =>
    rw [ih, step.kind, latestBringUp_cons]
    cases latestBringUp _ <;> rfl

theorem Course.throttle (h : Course card entries card') :
    (throttles (entries.flatMap Entry.requests)).getLast? =
      (latestBringUp entries).map fun r => if r.isOk then throttleRun else throttleInit := by
  induction h with
  | nil => rfl
  | cons step _ ih =>
    rw [List.flatMap_cons, throttles_append, List.getLast?_append, ih, step.throttle, latestBringUp_cons]
    cases latestBringUp _ <;> rfl

theorem Course.orderly (h : Course card entries card') : Orderly (entries.flatMap Entry.marks) := by
  induction h with
  | nil => exact orderly_of_idle (by simp) rfl
  | cons step _ ih => exact step.orderly.append ih

/-- Any entry of a course begins with a card that the entries before it left. -/
theorem Course.split {before after : List Entry} {e : Entry}
    (h : Course card (before ++ e :: after) card') :
    ∃ first second, Course card before first ∧ e.Takes first second := by
  induction before generalizing card with
  | nil =>
    obtain _ | ⟨step, -⟩ := h
    exact ⟨card, _, .nil card, step⟩
  | cons e' before ih =>
    obtain _ | ⟨step, rest⟩ := h
    obtain ⟨first, second, course, takes⟩ := ih rest
    exact ⟨first, second, .cons step course, takes⟩

theorem Course.disciplined (h : Course .fresh entries card) : Disciplined entries card where
  kind := by
    rw [h.kind, kindAfter]
    cases latestBringUp entries <;> rfl
  throttle := by
    intro some
    rw [h.throttle, h.kind]
    cases ended : latestBringUp entries with
    | none => exact absurd ended some
    | some r => cases r <;> rfl
  no_transfer := by
    rintro before e after rfl none
    obtain ⟨first, second, course, takes⟩ := h.split
    refine takes.no_transfer (none.imp_left fun unknown => ?_)
    rw [course.kind]
    rw [kindAfter] at unknown
    cases ended : latestBringUp before with
    | none => rfl
    | some r => rwa [ended] at unknown
  paired := by
    intro before after same
    exact Paired.releases (same ▸ h.orderly.paired)
  ends_released := by
    intro e he select
    obtain ⟨before, after, rfl⟩ := List.append_of_mem he
    obtain ⟨first, second, _, takes⟩ := h.split
    exact takes.ends_released select
  released := h.orderly.released
  quiet := by
    intro before m after same unselected
    exact Quiet.idle (same ▸ h.orderly.quiet) unselected

end Courses

/-- Any operations on a fresh card, in any order and with any replies, have a history, and it is
disciplined. -/
theorem history_disciplined (rounds : Nat) (replies : Stream' UInt8) (operations : List Operation) :
    ∃ entries card rest, history rounds .fresh replies operations = some (entries, card, rest) ∧
      entries.map Entry.operation = operations ∧ Disciplined entries card := by
  obtain ⟨entries, card, rest, ran, same, course⟩ := history_course rounds .fresh replies operations
  exact ⟨entries, card, rest, ran, same, course.disciplined⟩

/-- A bring-up releases the card that the frame before it has released already, so that two releases
stand between one selection and the next. -/
theorem released_again_at_bringUp : ∃ entries card rest after,
    history 0 .fresh (Stream'.const 0xFF) [.goIdle, .init] = some (entries, card, rest) ∧
      entries.flatMap Entry.marks = [.begins .goIdle, .asks (.write 0xFF), .asks .select] ++ after ∧
      .asks .select ∈ after ∧ releases (untilSelect after) = 2 := by
  obtain ⟨entries, card, rest, ran, -⟩ :=
    history_course 0 .fresh (Stream'.const 0xFF) [.goIdle, .init]
  have seen : ∀ h ∈ history 0 .fresh (Stream'.const 0xFF) [.goIdle, .init],
      (h.1.flatMap Entry.marks).take 3 = [.begins .goIdle, .asks (.write 0xFF), .asks .select] ∧
        .asks .select ∈ (h.1.flatMap Entry.marks).drop 3 ∧
        releases (untilSelect ((h.1.flatMap Entry.marks).drop 3)) = 2 := by
    decide +kernel
  obtain ⟨start, again, twice⟩ := seen _ ran
  exact ⟨entries, card, rest, _, ran, start ▸ (List.take_append_drop 3 _).symm, again, twice⟩

end BoardSupport.SdCard

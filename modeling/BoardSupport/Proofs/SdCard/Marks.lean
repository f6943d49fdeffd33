import BoardSupport.Proofs.SdCard.History
import Mathlib.Data.List.Basic

/-! The points of a history at which an operation begins or something is asked of the wire, and how
chip select and the bytes around it go together over them. -/
namespace BoardSupport.SdCard

open Spi Program

/-- A point of a history: an operation begins, or something is asked of the wire. -/
inductive Mark
  | begins (operation : Operation)
  | asks (request : Channel.Request)
  deriving DecidableEq

def Entry.marks (e : Entry) : List Mark := .begins e.operation :: e.requests.map .asks

/-- Whether the card is selected after a mark. -/
def Mark.selects (before : Bool) : Mark → Bool
  | .asks .select => true
  | .asks .deselect => false
  | _ => before

/-- Whether a card that was not selected at first is selected after these marks. -/
def selectedAfter (marks : List Mark) : Bool := marks.foldl Mark.selects false

/-- What an unselected card may see: no byte is read, and none is written but idle clocks. -/
def Mark.Idle : Mark → Prop
  | .asks .read => False
  | .asks (.write b) => b = 0xFF
  | _ => True

/-- The marks before the next selection. -/
def untilSelect (marks : List Mark) : List Mark := marks.takeWhile (· ≠ .asks .select)

def releases (marks : List Mark) : Nat := marks.count (.asks .deselect)

def bringUps (marks : List Mark) : Nat := marks.count (.begins .init)

section Marks

variable {first second marks : List Mark}

/-- Every selection is followed by as many releases as it should. -/
def Paired : List Mark → Prop
  | [] => True
  | m :: rest =>
    (m = .asks .select → releases (untilSelect rest) = 1 + bringUps (untilSelect rest)) ∧ Paired rest

/-- Nothing but idle clocks while the card is not selected. -/
def Quiet (selected : Bool) : List Mark → Prop
  | [] => True
  | m :: rest => (selected = false → m.Idle) ∧ Quiet (m.selects selected) rest

/-- What a part of a history keeps that begins and ends with the card released. -/
structure Orderly (marks : List Mark) : Prop where
  paired : Paired marks
  /-- Before the first selection, only bring-ups release the card, once each. -/
  balanced : releases (untilSelect marks) = bringUps (untilSelect marks)
  quiet : Quiet false marks
  released : selectedAfter marks = false

theorem untilSelect_cons {m : Mark} (other : m ≠ .asks .select) (rest : List Mark) :
    untilSelect (m :: rest) = m :: untilSelect rest := by
  simp [untilSelect, other]

theorem untilSelect_append_of_mem (h : .asks .select ∈ first) (second : List Mark) :
    untilSelect (first ++ second) = untilSelect first := by
  induction first with
  | nil => simp at h
  | cons m rest ih =>
    by_cases here : m = .asks .select
    · subst here
      rfl
    · rw [List.cons_append, untilSelect_cons here, untilSelect_cons here]
      rw [ih ((List.mem_cons.mp h).resolve_left (Ne.symm here))]

theorem untilSelect_append_of_not_mem (h : .asks .select ∉ first) (second : List Mark) :
    untilSelect (first ++ second) = first ++ untilSelect second := by
  induction first with
  | nil => rfl
  | cons m rest ih =>
    rw [List.mem_cons, not_or] at h
    rw [List.cons_append, untilSelect_cons (Ne.symm h.1), ih h.2, List.cons_append]

theorem untilSelect_of_not_mem (h : .asks .select ∉ marks) : untilSelect marks = marks := by
  have whole := untilSelect_append_of_not_mem h []
  rwa [List.append_nil, show untilSelect [] = [] from rfl, List.append_nil] at whole

private theorem balanced_append (h : releases (untilSelect second) = bringUps (untilSelect second))
    {extra : Nat} (h' : releases (untilSelect first) = extra + bringUps (untilSelect first)) :
    releases (untilSelect (first ++ second)) = extra + bringUps (untilSelect (first ++ second)) := by
  by_cases mem : .asks .select ∈ first
  · rw [untilSelect_append_of_mem mem, h']
  · rw [untilSelect_of_not_mem mem] at h'
    rw [untilSelect_append_of_not_mem mem, releases, bringUps, List.count_append, List.count_append]
    simp only [releases, bringUps] at h h'
    omega

private theorem paired_append (hf : Paired first) (hs : Paired second)
    (h : releases (untilSelect second) = bringUps (untilSelect second)) : Paired (first ++ second) := by
  induction first with
  | nil => exact hs
  | cons m rest ih => exact ⟨fun select => balanced_append h (hf.1 select), ih hf.2⟩

private theorem paired_of_not_mem (h : .asks .select ∉ marks) : Paired marks := by
  induction marks with
  | nil => trivial
  | cons m rest ih =>
    rw [List.mem_cons, not_or] at h
    exact ⟨fun here => absurd here.symm h.1, ih h.2⟩

private theorem quiet_append {selected : Bool} : Quiet selected (first ++ second) ↔
    Quiet selected first ∧ Quiet (first.foldl Mark.selects selected) second := by
  induction first generalizing selected with
  | nil => simp only [List.nil_append, Quiet, List.foldl_nil, true_and]
  | cons m rest ih => simp only [List.cons_append, Quiet, ih, List.foldl_cons, and_assoc]

theorem Paired.releases {before after : List Mark} (h : Paired (before ++ .asks .select :: after)) :
    releases (untilSelect after) = 1 + bringUps (untilSelect after) := by
  induction before with
  | nil => exact h.1 rfl
  | cons m rest ih => exact ih h.2

theorem Quiet.idle {selected : Bool} {before after : List Mark} {m : Mark}
    (h : Quiet selected (before ++ m :: after))
    (unselected : before.foldl Mark.selects selected = false) : m.Idle :=
  (quiet_append.mp h).2.1 unselected

/-- Orderly parts make an orderly whole. -/
theorem Orderly.append (hf : Orderly first) (hs : Orderly second) : Orderly (first ++ second) where
  paired := paired_append hf.paired hs.paired hs.balanced
  balanced := by
    have h := @balanced_append first second hs.balanced 0 (by rw [hf.balanced, Nat.zero_add])
    rwa [Nat.zero_add] at h
  quiet := by
    have released := hf.released
    unfold selectedAfter at released
    exact quiet_append.mpr ⟨hf.quiet, by rw [released]; exact hs.quiet⟩
  released := by
    have released := hf.released
    unfold selectedAfter at released ⊢
    rw [List.foldl_append, released]
    exact hs.released

private theorem quiet_of_idle (h : ∀ m ∈ marks, m ≠ .asks .select ∧ m.Idle) :
    Quiet false marks ∧ selectedAfter marks = false := by
  unfold selectedAfter
  induction marks with
  | nil => exact ⟨trivial, rfl⟩
  | cons m rest ih =>
    obtain ⟨⟨other, idle⟩, rest_idle⟩ := List.forall_mem_cons.mp h
    have stays : m.selects false = false := by
      unfold Mark.selects
      split
      · exact absurd rfl other
      all_goals rfl
    rw [List.foldl_cons, Quiet, stays]
    exact ⟨⟨fun _ => idle, (ih rest_idle).1⟩, (ih rest_idle).2⟩

/-- Idle clocks and waits are orderly, with a release for each bring-up that begins. -/
theorem orderly_of_idle (h : ∀ m ∈ marks, m ≠ .asks .select ∧ m.Idle)
    (balance : releases marks = bringUps marks) : Orderly marks where
  paired := paired_of_not_mem fun mem => (h _ mem).1 rfl
  balanced := by rwa [untilSelect_of_not_mem fun mem => (h _ mem).1 rfl]
  quiet := (quiet_of_idle h).1
  released := (quiet_of_idle h).2

private theorem quiet_of_moves {requests : List Channel.Request} (h : ∀ r ∈ requests, MovesByte r) :
    Quiet true (requests.map .asks) ∧ (requests.map Mark.asks).foldl Mark.selects true = true := by
  induction requests with
  | nil => exact ⟨trivial, rfl⟩
  | cons r rest ih =>
    obtain ⟨moves, rest_moves⟩ := List.forall_mem_cons.mp h
    have stays : (Mark.asks r).selects true = true := by
      rcases moves with rfl | ⟨b, rfl⟩ <;> rfl
    rw [List.map_cons, List.foldl_cons, Quiet, stays]
    exact ⟨⟨fun unselected => absurd unselected (by decide), (ih rest_moves).1⟩, (ih rest_moves).2⟩

theorem count_asks {allowed : Channel.Request → Prop} {requests : List Channel.Request}
    (h : ∀ r ∈ requests, allowed r) {m : Mark} (other : ∀ r, allowed r → m ≠ .asks r) :
    (requests.map Mark.asks).count m = 0 := by
  rw [List.count_eq_zero]
  intro mem
  obtain ⟨r, hr, rfl⟩ := List.mem_map.mp mem
  exact other r (h r hr) rfl

/-- In a frame the card is selected once and then released once, and bytes move in between. -/
theorem orderly_frame {requests : List Channel.Request} (h : ∀ r ∈ requests, MovesByte r) :
    Orderly (([.write 0xFF, .select, .write 0xFF] ++ requests ++
      [.write 0xFF, .deselect, .write 0xFF] : List Channel.Request).map .asks) := by
  have select : Mark.asks .select ∉ requests.map Mark.asks := by
    rw [← List.count_eq_zero]
    exact count_asks h fun r hr same => by
      obtain rfl := Mark.asks.inj same
      rcases hr with hr | ⟨b, hr⟩ <;> cases hr
  have release : (requests.map Mark.asks).count (.asks .deselect) = 0 :=
    count_asks h fun r hr same => by
      obtain rfl := Mark.asks.inj same
      rcases hr with hr | ⟨b, hr⟩ <;> cases hr
  have bringUp : (requests.map Mark.asks).count (.begins .init) = 0 := count_asks h fun r _ same => by cases same
  have tail : Mark.asks .select ∉
      Mark.asks (.write 0xFF) :: (requests.map .asks ++
        [.asks (.write 0xFF), .asks .deselect, .asks (.write 0xFF)]) := by
    simp [select]
  obtain ⟨inside, selected⟩ := quiet_of_moves h
  simp only [List.map_append, List.map_cons, List.map_nil, List.cons_append, List.nil_append] at tail ⊢
  refine ⟨⟨nofun, fun _ => ?_, paired_of_not_mem tail⟩, rfl, ?_, ?_⟩
  · rw [untilSelect_of_not_mem tail]
    simp only [releases, bringUps, List.count_cons, List.count_append, release, bringUp, List.count_nil]
    decide
  · refine ⟨fun _ => rfl, fun _ => trivial, nofun, quiet_append.mpr ⟨inside, ?_⟩⟩
    exact ⟨fun _ => rfl, fun _ => trivial, fun _ => rfl, trivial⟩
  · simp only [selectedAfter, List.foldl_cons, List.foldl_append]
    rfl

/-- Frames with waits in between are orderly. -/
theorem orderly_of_framed {log : List (Exchange Channel)} (h : Framed log) :
    Orderly ((log.map (·.request)).map .asks) := by
  induction h with
  | nil => exact orderly_of_idle (by simp) rfl
  | wait ms _ ih =>
    refine Orderly.append (orderly_of_idle ?_ rfl : Orderly [.asks (.delay ms)]) ih
    simp [Mark.Idle]
  | @frame inner log moves _ ih =>
    have requests : (frameOf inner).map (·.request) =
        [.write 0xFF, .select, .write 0xFF] ++ inner.map (·.request) ++
          [.write 0xFF, .deselect, .write 0xFF] := by
      simp [frameOf]
    rw [List.map_append, List.map_append, requests]
    exact (orderly_frame (by simpa using moves)).append ih

end Marks

end BoardSupport.SdCard

import BoardSupport.Proofs.SdCard.History
import Mathlib.Data.Stream.Init

/-! What passes between driver and card: the bytes that are read, and those that are sent in each
frame. On a wire that always answers, a course of the driver is taken exactly if its bytes come first
among the replies (`ends_of_follows`, `exists_course`). -/
namespace BoardSupport.SdCard

open Spi Program

def heard : Exchange Channel → Option UInt8
  | ⟨.read, b⟩ => some b
  | _ => none

def reads (log : List (Exchange Channel)) : List UInt8 := log.filterMap heard

/-- What is sent while the card is selected, one list for each time. -/
def sent : (selected : Option (List UInt8)) → List Channel.Request → List (List UInt8)
  | none, [] => []
  | some bytes, [] => [bytes]
  | _, .select :: requests => sent (some []) requests
  | some bytes, .deselect :: requests => bytes :: sent none requests
  | some bytes, .write b :: requests => sent (some (bytes ++ [b])) requests
  | selected, _ :: requests => sent selected requests

/-- The frames of an exchange that begins with the card unselected. -/
def frames (log : List (Exchange Channel)) : List (List UInt8) := sent none (log.map (·.request))

section Reads

theorem reads_append (first second : List (Exchange Channel)) :
    reads (first ++ second) = reads first ++ reads second := List.filterMap_append

theorem reads_of_no_read {log : List (Exchange Channel)} (h : ∀ x ∈ log, x.request ≠ .read) :
    reads log = [] := by
  refine List.filterMap_eq_nil_iff.mpr fun x mem => ?_
  obtain ⟨request, reply⟩ := x
  cases request with
  | read => exact absurd rfl (h _ mem)
  | _ => rfl

variable {α : Type} {p : Program Channel α} {log : List (Exchange Channel)} {a : α}

private theorem answering_heard (r : Channel.Request) (x : Channel.Reply r) (rest : Stream' UInt8) :
    answering r (reads [⟨r, x⟩] ++ₛ rest) = .ok x rest := by
  cases r <;> rfl

private theorem answers_reads (log : List (Exchange Channel)) (rest : Stream' UInt8) :
    answering.Answers (reads log ++ₛ rest) log rest := by
  induction log with
  | nil => exact .nil rest
  | cons x log ih =>
    have split : reads (x :: log) ++ₛ rest = reads [x] ++ₛ (reads log ++ₛ rest) := by
      rw [← Stream'.append_append_stream, ← reads_append, List.singleton_append]
    rw [split]
    exact .cons (answering_heard x.request x.reply _) ih

/-- The course is taken if its bytes are what is read first. -/
theorem ends_of_follows (h : Follows p log a) (rest : Stream' UInt8) (before : List (Exchange Channel)) :
    Ends answering.recorded p (reads log ++ₛ rest, before) (.ok a (rest, before ++ log)) :=
  h.ends (answers_recorded.mpr ⟨answers_reads log rest, rfl⟩)

/-- Whatever the replies, there is a course that reads them. -/
theorem exists_course {allowed : Channel.Request → Prop} (hp : p.Bounded allowed)
    (replies : Stream' UInt8) : ∃ log a rest, Follows p log a ∧ replies = reads log ++ₛ rest := by
  induction p generalizing replies with
  | done a => exact ⟨[], a, replies, .done a, rfl⟩
  | fault | loop => exact hp.elim
  | ask r next ih =>
    -- Only a read takes something from the replies.
    obtain ⟨x, later, split⟩ : ∃ x later, replies = reads [⟨r, x⟩] ++ₛ later := by
      cases r with
      | read => exact ⟨replies.head, replies.tail, (Stream'.append_stream_head_tail replies).symm⟩
      | _ => exact ⟨(), replies, rfl⟩
    obtain ⟨log, a, rest, course, rfl⟩ := ih x (hp.2 x) later
    refine ⟨⟨r, x⟩ :: log, a, rest, .ask course, ?_⟩
    rw [split, ← Stream'.append_append_stream, ← reads_append, List.singleton_append]

end Reads

section Frames

variable {log : List (Exchange Channel)}

/-- Outside of frames nothing counts as sent. -/
theorem sent_idle (h : ∀ x ∈ log, x.request ≠ .select) (requests : List Channel.Request) :
    sent none (log.map (·.request) ++ requests) = sent none requests := by
  induction log with
  | nil => rfl
  | cons x log ih =>
    obtain ⟨here, later⟩ := List.forall_mem_cons.mp h
    rw [List.map_cons, List.cons_append]
    generalize x.request = r at here
    cases r with
    | select => exact absurd rfl here
    | _ => exact ih later

def written : Channel.Request → Option UInt8
  | .write b => some b
  | _ => none

private theorem sent_moves (h : ∀ x ∈ log, MovesByte x.request) (bytes : List UInt8)
    (requests : List Channel.Request) : sent (some bytes) (log.map (·.request) ++ requests) =
      sent (some (bytes ++ log.filterMap (written ·.request))) requests := by
  induction log generalizing bytes with
  | nil => simp
  | cons x log ih =>
    obtain ⟨here, later⟩ := List.forall_mem_cons.mp h
    rw [List.map_cons, List.cons_append, List.filterMap_cons]
    generalize x.request = r at here
    rcases here with rfl | ⟨b, rfl⟩
    · exact ih later bytes
    · simpa [sent, written] using ih later (bytes ++ [b])

private theorem sent_frameOf (h : ∀ x ∈ log, MovesByte x.request) (requests : List Channel.Request) :
    sent none ((frameOf log).map (·.request) ++ requests) =
      (0xFF :: log.filterMap (written ·.request) ++ [0xFF]) :: sent none requests := by
  have opened := sent_moves h [0xFF] (.write 0xFF :: .deselect :: .write 0xFF :: requests)
  simpa [frameOf, sent] using opened

private theorem sent_framed (h : Framed log) (requests : List Channel.Request) :
    sent none (log.map (·.request) ++ requests) = frames log ++ sent none requests := by
  induction h with
  | nil => rfl
  | wait ns _ ih => exact ih
  | @frame inner log moves _ ih =>
    have whole : frames (frameOf inner ++ log) =
        (0xFF :: inner.filterMap (written ·.request) ++ [0xFF]) :: frames log := by
      rw [frames, List.map_append, sent_frameOf moves]
      rfl
    rw [whole, List.map_append, List.append_assoc, sent_frameOf moves, ih]
    rfl

theorem frames_append (h : Framed log) (more : List (Exchange Channel)) :
    frames (log ++ more) = frames log ++ frames more := by
  rw [frames, List.map_append, sent_framed h]
  rfl

theorem frames_idle_append (h : ∀ x ∈ log, x.request ≠ .select) (more : List (Exchange Channel)) :
    frames (log ++ more) = frames more := by
  rw [frames, List.map_append, sent_idle h]
  rfl

theorem frames_frameOf (h : ∀ x ∈ log, MovesByte x.request) :
    frames (frameOf log) = [0xFF :: log.filterMap (written ·.request) ++ [0xFF]] := by
  have whole := sent_frameOf h []
  rwa [List.append_nil] at whole

end Frames

section Bytes

/-- Bytes that go to the card, one after another. -/
def sending (bytes : List UInt8) : List (Exchange Channel) := bytes.map fun b => ⟨.write b, ()⟩

/-- Bytes that come from the card, one after another. -/
def taking (bytes : List UInt8) : List (Exchange Channel) := bytes.map fun b => ⟨.read, b⟩

theorem reads_sending (bytes : List UInt8) : reads (sending bytes) = [] := by
  refine reads_of_no_read fun x mem => ?_
  obtain ⟨b, -, rfl⟩ := List.mem_map.mp mem
  nofun

theorem reads_taking (bytes : List UInt8) : reads (taking bytes) = bytes := by
  rw [reads, taking, List.filterMap_map]
  exact List.filterMap_some

theorem reads_frameOf (inner : List (Exchange Channel)) : reads (frameOf inner) = reads inner := by
  simp only [frameOf, reads_append]
  exact List.append_nil _

/-- Exchanges that only read are the bytes that they read. -/
theorem taking_reads {log : List (Exchange Channel)} (only : ∀ x ∈ log, x.request = .read) :
    taking (reads log) = log := by
  induction log with
  | nil => rfl
  | cons x log ih =>
    obtain ⟨here, later⟩ := List.forall_mem_cons.mp only
    obtain ⟨request, b⟩ := x
    obtain rfl : request = .read := here
    exact congrArg (⟨.read, b⟩ :: ·) (ih later)

end Bytes

end BoardSupport.SdCard

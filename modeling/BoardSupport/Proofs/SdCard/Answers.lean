import BoardSupport.Proofs.SdCard.Conversation
import BoardSupport.Proofs.SdCard.BringUpGrammar

/-! How the steps of a bring-up can end, by the bytes that they read and the frames that they send. -/
namespace BoardSupport.SdCard

open Spi Program

section Reads

variable {α β : Type} {used : List UInt8}

/-- The program can end with a value after it has read just these bytes. -/
def Reads (p : Program Channel α) (used : List UInt8) (a : α) : Prop :=
  ∃ log, Follows p log a ∧ reads log = used

theorem reads_done {a b : α} : Reads (.done a) used b ↔ used = [] ∧ b = a := by
  constructor
  · rintro ⟨log, course, rfl⟩
    obtain ⟨rfl, rfl⟩ := follows_done.mp course
    exact ⟨rfl, rfl⟩
  · rintro ⟨rfl, rfl⟩
    exact ⟨[], .done _, rfl⟩

theorem reads_read {b : UInt8} : Reads Channel.read used b ↔ used = [b] := by
  constructor
  · rintro ⟨log, course, rfl⟩
    obtain rfl := follows_call.mp course
    rfl
  · rintro rfl
    exact ⟨_, follows_call.mpr rfl, rfl⟩

theorem reads_bind {p : Program Channel α} {f : α → Program Channel β} {b : β} :
    Reads (p >>= f) used b ↔
      ∃ a first second, used = first ++ second ∧ Reads p first a ∧ Reads (f a) second b := by
  constructor
  · rintro ⟨log, course, rfl⟩
    obtain ⟨a, first, second, rfl, here, later⟩ := follows_bind.mp course
    exact ⟨a, _, _, reads_append _ _, ⟨first, here, rfl⟩, ⟨second, later, rfl⟩⟩
  · rintro ⟨a, _, _, rfl, ⟨first, here, rfl⟩, ⟨second, later, rfl⟩⟩
    exact ⟨_, follows_bind.mpr ⟨a, first, second, rfl, here, later⟩, reads_append _ _⟩

theorem reads_session_bind {s : Session β} {f : β → Session α} {r : Except SdError α} :
    Reads (s >>= f).run used r ↔ (∃ e, r = .error e ∧ Reads s.run used (.error e)) ∨
      ∃ b first second, used = first ++ second ∧ Reads s.run first (.ok b) ∧
        Reads (f b).run second r := by
  constructor
  · rintro ⟨log, course, rfl⟩
    rcases follows_session_bind.mp course with ⟨e, rfl, failed⟩ | ⟨b, first, second, rfl, went, rest⟩
    · exact .inl ⟨e, rfl, log, failed, rfl⟩
    · exact .inr ⟨b, _, _, reads_append _ _, ⟨first, went, rfl⟩, ⟨second, rest, rfl⟩⟩
  · rintro (⟨e, rfl, log, failed, rfl⟩ | ⟨b, _, _, rfl, ⟨first, went, rfl⟩, ⟨second, rest, rfl⟩⟩)
    · exact ⟨log, follows_session_bind.mpr (.inl ⟨e, rfl, failed⟩), rfl⟩
    · exact ⟨_, follows_session_bind.mpr (.inr ⟨b, first, second, rfl, went, rest⟩),
        reads_append _ _⟩

/-- What a program reads at the head of a stream, and how it ends, is settled by the stream. -/
theorem Reads.unique {p : Program Channel α} {used' : List UInt8} {a a' : α} {rest rest' : Stream' UInt8}
    (h : Reads p used a) (h' : Reads p used' a') (same : used ++ₛ rest = used' ++ₛ rest') :
    used = used' ∧ a = a' := by
  obtain ⟨log, course, rfl⟩ := h
  obtain ⟨log', course', rfl⟩ := h'
  have ends := ends_of_follows course rest []
  rw [same] at ends
  have results := ends.unique (ends_of_follows course' rest' [])
  simp only [List.nil_append, EStateM.Result.ok.injEq, Prod.mk.injEq] at results
  obtain ⟨rfl, -, rfl⟩ := results
  exact ⟨rfl, rfl⟩

/-- The courses of a program that only reads are told by the bytes that it reads. -/
theorem follows_reading {p : Program Channel α} (only : p.Bounded (Channel.Request.read = ·))
    {log : List (Exchange Channel)} {a : α} :
    Follows p log a ↔ ∃ used, log = taking used ∧ Reads p used a := by
  have taken {log : List (Exchange Channel)} (course : Follows p log a) : taking (reads log) = log :=
    taking_reads fun x mem => (course.bounded only x mem).symm
  constructor
  · intro course
    exact ⟨reads log, (taken course).symm, log, course, rfl⟩
  · rintro ⟨_, rfl, log', course, rfl⟩
    rwa [taken course]

/-- A search through bytes of one value reads up to the first that is another, or to its end. -/
theorem reads_readUntil {idle : UInt8} {n : Nat} {found : Option UInt8} :
    Reads (Channel.readUntil (· != idle) n) used found ↔
      (∃ k < n, ∃ v, used = List.replicate k idle ++ [v] ∧ v ≠ idle ∧ found = some v) ∨
        used = List.replicate n idle ∧ found = none := by
  have skip : ¬ (idle != idle) = true := by simp
  induction n generalizing used with
  | zero =>
    rw [Channel.readUntil, pure_eq_done, reads_done]
    simp
  | succ n ih =>
    rw [Channel.readUntil, reads_bind]
    constructor
    · rintro ⟨b, first, rest, rfl, read, later⟩
      obtain rfl := reads_read.mp read
      by_cases same : b = idle
      · subst same
        rw [if_neg skip] at later
        rcases ih.mp later with ⟨k, bound, v, rfl, other, rfl⟩ | ⟨rfl, rfl⟩
        · exact .inl ⟨k + 1, by omega, v, rfl, other, rfl⟩
        · exact .inr ⟨rfl, rfl⟩
      · rw [if_pos (bne_iff_ne.mpr same)] at later
        obtain ⟨rfl, rfl⟩ := reads_done.mp later
        exact .inl ⟨0, by omega, b, rfl, same, rfl⟩
    · rintro (⟨_ | k, bound, v, rfl, other, rfl⟩ | ⟨rfl, rfl⟩)
      · refine ⟨v, [v], [], rfl, reads_read.mpr rfl, ?_⟩
        rw [if_pos (bne_iff_ne.mpr other)]
        exact reads_done.mpr ⟨rfl, rfl⟩
      · refine ⟨idle, [idle], List.replicate k idle ++ [v], rfl, reads_read.mpr rfl, ?_⟩
        rw [if_neg skip]
        exact ih.mpr (.inl ⟨k, by omega, v, rfl, other, rfl⟩)
      · refine ⟨idle, [idle], List.replicate n idle, rfl, reads_read.mpr rfl, ?_⟩
        rw [if_neg skip]
        exact ih.mpr (.inr ⟨rfl, rfl⟩)

theorem reads_readR1 {r : Except SdError R1} :
    Reads readR1.run used r ↔
      (∃ v, IsStatus used v ∧ r = .ok ⟨v⟩) ∨ used = silence ∧ r = .error .timeout := by
  change Reads (Channel.readUntil (· != 0xFF) 9 >>= _) used r ↔ _
  simp only [reads_bind, reads_readUntil]
  constructor
  · rintro ⟨_, first, second, rfl, ⟨k, bound, v, rfl, other, rfl⟩ | ⟨rfl, rfl⟩, later⟩
    · obtain ⟨rfl, rfl⟩ := reads_done.mp later
      rw [List.append_nil]
      exact .inl ⟨v, ⟨k, by omega, rfl, other⟩, rfl⟩
    · obtain ⟨rfl, rfl⟩ := reads_done.mp later
      exact .inr ⟨List.append_nil _, rfl⟩
  · rintro (⟨v, ⟨k, bound, rfl, other⟩, rfl⟩ | ⟨rfl, rfl⟩)
    · exact ⟨some v, _, [], (List.append_nil _).symm, .inl ⟨k, by omega, v, rfl, other, rfl⟩,
        reads_done.mpr ⟨rfl, rfl⟩⟩
    · exact ⟨none, _, [], (List.append_nil _).symm, .inr ⟨rfl, rfl⟩, reads_done.mpr ⟨rfl, rfl⟩⟩

private theorem reads_byte {next : UInt8 → Session α} {r : Except SdError α} :
    Reads (always Channel.read >>= next).run used r ↔
      ∃ b rest, used = b :: rest ∧ Reads (next b).run rest r := by
  change Reads (Channel.read >>= fun b => (next b).run) used r ↔ _
  simp only [reads_bind, reads_read]
  constructor
  · rintro ⟨b, _, rest, rfl, rfl, later⟩
    exact ⟨b, rest, rfl, later⟩
  · rintro ⟨b, rest, rfl, later⟩
    exact ⟨b, [b], rest, rfl, rfl, later⟩

theorem reads_readLong {f : R1 → UInt8 → UInt8 → UInt8 → UInt8 → α} {r : Except SdError α} :
    Reads (readLong f).run used r ↔
      (∃ status v b0 b1 b2 b3, IsStatus status v ∧ used = status ++ [b0, b1, b2, b3] ∧
        r = .ok (f ⟨v⟩ b0 b1 b2 b3)) ∨ used = silence ∧ r = .error .timeout := by
  rw [readLong, ExceptT.run_bind, reads_bind]
  simp only [reads_readR1]
  constructor
  · rintro ⟨_, first, second, rfl, ⟨v, status, rfl⟩ | ⟨rfl, rfl⟩, later⟩
    · obtain ⟨b0, _, rfl, after0⟩ := reads_byte.mp later
      obtain ⟨b1, _, rfl, after1⟩ := reads_byte.mp after0
      obtain ⟨b2, _, rfl, after2⟩ := reads_byte.mp after1
      obtain ⟨b3, _, rfl, after3⟩ := reads_byte.mp after2
      obtain ⟨rfl, rfl⟩ := reads_done.mp after3
      exact .inl ⟨first, v, b0, b1, b2, b3, status, rfl, rfl⟩
    · obtain ⟨rfl, rfl⟩ := reads_done.mp later
      exact .inr ⟨List.append_nil _, rfl⟩
  · rintro (⟨first, v, b0, b1, b2, b3, status, rfl, rfl⟩ | ⟨rfl, rfl⟩)
    · refine ⟨.ok ⟨v⟩, first, _, rfl, .inl ⟨v, status, rfl⟩, ?_⟩
      refine reads_byte.mpr ⟨b0, _, rfl, reads_byte.mpr ⟨b1, _, rfl, ?_⟩⟩
      refine reads_byte.mpr ⟨b2, _, rfl, reads_byte.mpr ⟨b3, _, rfl, ?_⟩⟩
      exact reads_done.mpr ⟨rfl, rfl⟩
    · exact ⟨_, _, [], (List.append_nil _).symm, .inr ⟨rfl, rfl⟩, reads_done.mpr ⟨rfl, rfl⟩⟩

end Reads

section Converses

variable {α β : Type} {used : List UInt8} {sent : List (List UInt8)} {r : Except SdError α}

/-- The session can end so after it has read just these bytes and sent just these frames. -/
def Converses (s : Session α) (used : List UInt8) (sent : List (List UInt8)) (r : Except SdError α) :
    Prop :=
  ∃ log, Follows s.run log r ∧ reads log = used ∧ frames log = sent

theorem converses_done {r' : Except SdError α} :
    Converses (ExceptT.mk (.done r')) used sent r ↔ r = r' ∧ used = [] ∧ sent = [] := by
  constructor
  · rintro ⟨log, course, rfl, rfl⟩
    obtain ⟨rfl, rfl⟩ := follows_done.mp course
    exact ⟨rfl, rfl, rfl⟩
  · rintro ⟨rfl, rfl, rfl⟩
    exact ⟨[], .done _, rfl, rfl⟩

theorem converses_pure {a : α} :
    Converses (pure a) used sent r ↔ r = .ok a ∧ used = [] ∧ sent = [] := converses_done

theorem converses_throw {e : SdError} :
    Converses (throw e) used sent r ↔ r = .error e ∧ used = [] ∧ sent = [] := converses_done

theorem converses_bind {allowed : Channel.Request → Prop} {s : Session β} (hs : Framing allowed s)
    {f : β → Session α} : Converses (s >>= f) used sent r ↔
      (∃ e, r = .error e ∧ Converses s used sent (.error e)) ∨
        ∃ b first second here later, used = first ++ second ∧ sent = here ++ later ∧
          Converses s first here (.ok b) ∧ Converses (f b) second later r := by
  constructor
  · rintro ⟨log, course, rfl, rfl⟩
    rcases follows_session_bind.mp course with ⟨e, rfl, failed⟩ | ⟨b, first, second, rfl, went, rest⟩
    · exact .inl ⟨e, rfl, log, failed, rfl, rfl⟩
    · exact .inr ⟨b, _, _, _, _, reads_append _ _, frames_append (hs.framed went) _,
        ⟨first, went, rfl, rfl⟩, ⟨second, rest, rfl, rfl⟩⟩
  · rintro (⟨e, rfl, log, failed, same⟩ |
      ⟨b, _, _, _, _, rfl, rfl, ⟨first, went, rfl, rfl⟩, ⟨second, rest, rfl, rfl⟩⟩)
    · exact ⟨log, follows_session_bind.mpr (.inl ⟨e, rfl, failed⟩), same⟩
    · exact ⟨first ++ second, follows_session_bind.mpr (.inr ⟨b, first, second, rfl, went, rest⟩),
        reads_append _ _, frames_append (hs.framed went) _⟩

def Idle (r : Channel.Request) : Prop := r ≠ .read ∧ r ≠ .select

/-- Nothing that counts passes while the driver is idle. -/
theorem converses_idle {p : Program Channel Unit} (idle : p.Bounded Idle) {next : Unit → Session α} :
    Converses (always p >>= next) used sent r ↔ Converses (next ()) used sent r := by
  have nothing {log : List (Exchange Channel)} {u : Unit} (course : Follows p log u)
      (rest : List (Exchange Channel)) : reads (log ++ rest) = reads rest ∧
        frames (log ++ rest) = frames rest := by
    have requests := course.bounded idle
    rw [reads_append, reads_of_no_read fun x mem => (requests x mem).1, List.nil_append]
    exact ⟨rfl, frames_idle_append (fun x mem => (requests x mem).2) rest⟩
  constructor
  · rintro ⟨log, course, rfl, rfl⟩
    rcases follows_session_bind.mp course with ⟨e, rfl, failed⟩ | ⟨u, first, rest, rfl, went, later⟩
    · obtain ⟨_, ⟨⟩, _⟩ := follows_always.mp failed
    · obtain ⟨_, -, waited⟩ := follows_always.mp went
      obtain ⟨same_bytes, same_frames⟩ := nothing waited rest
      exact ⟨rest, later, same_bytes.symm, same_frames.symm⟩
  · rintro ⟨rest, later, rfl, rfl⟩
    -- An idle program has a course whatever is read, so on any stream at all.
    obtain ⟨log, u, _, waited, -⟩ := exists_course idle default
    obtain ⟨same_bytes, same_frames⟩ := nothing waited rest
    exact ⟨log ++ rest, follows_session_bind.mpr (.inr ⟨u, log, rest, rfl,
      follows_always.mpr ⟨u, rfl, waited⟩, later⟩), same_bytes, same_frames⟩

section Exchange

variable {index check : UInt8} {argument : UInt32}

theorem follows_writeAll {bytes : List UInt8} {log : List (Exchange Channel)} {u : Unit} :
    Follows (Channel.writeAll bytes) log u ↔ log = sending bytes := by
  induction bytes generalizing log with
  | nil => exact follows_done.trans (and_iff_left rfl)
  | cons b bytes ih =>
    change Follows (Channel.write b >>= fun _ => Channel.writeAll bytes) log u ↔ _
    rw [follows_bind]
    constructor
    · rintro ⟨_, first, second, rfl, here, later⟩
      obtain rfl := follows_call.mp here
      obtain rfl := ih.mp later
      rfl
    · rintro rfl
      exact ⟨(), [_], _, rfl, follows_call.mpr rfl, ih.mpr rfl⟩

/-- Bytes are sent, and then the program goes on. -/
theorem follows_writeAll_bind {bytes : List UInt8} {next : Unit → Program Channel β}
    {log : List (Exchange Channel)} {b : β} : Follows (Channel.writeAll bytes >>= next) log b ↔
      ∃ rest, log = sending bytes ++ rest ∧ Follows (next ()) rest b := by
  rw [follows_bind]
  constructor
  · rintro ⟨_, first, rest, rfl, wrote, later⟩
    obtain rfl := follows_writeAll.mp wrote
    exact ⟨rest, rfl, later⟩
  · rintro ⟨rest, rfl, later⟩
    exact ⟨(), _, rest, rfl, follows_writeAll.mpr rfl, later⟩

theorem follows_sending_bind {bytes : List UInt8} {next : Unit → Session α}
    {log : List (Exchange Channel)} : Follows (always (Channel.writeAll bytes) >>= next).run log r ↔
      ∃ rest, log = sending bytes ++ rest ∧ Follows (next ()).run rest r := by
  rw [run_always_bind, follows_writeAll_bind]

private theorem written_sending (bytes : List UInt8) :
    (sending bytes).filterMap (written ·.request) = bytes := by
  rw [sending, List.filterMap_map]
  exact List.filterMap_some

private theorem written_reading {log : List (Exchange Channel)} (only : ∀ x ∈ log, x.request = .read) :
    log.filterMap (written ·.request) = [] := by
  refine List.filterMap_eq_nil_iff.mpr fun x mem => ?_
  rw [only x mem]
  rfl

private theorem reads_exchange (bytes : List UInt8) (log : List (Exchange Channel)) :
    reads (frameOf (sending bytes ++ log)) = reads log := by
  rw [reads_frameOf, reads_append, reads_sending, List.nil_append]

private theorem frames_exchange (bytes : List UInt8) {log : List (Exchange Channel)}
    (only : ∀ x ∈ log, x.request = .read) :
    frames (frameOf (sending bytes ++ log)) = [0xFF :: bytes ++ [0xFF]] := by
  have moves : ∀ x ∈ sending bytes ++ log, MovesByte x.request := by
    intro x mem
    rcases List.mem_append.mp mem with mem | mem
    · obtain ⟨b, -, rfl⟩ := List.mem_map.mp mem
      exact .inr ⟨b, rfl⟩
    · exact .inl (only x mem)
  rw [frames_frameOf moves, List.filterMap_append, written_sending, written_reading only,
    List.append_nil]

theorem converses_exchange {answer : Session α}
    (only : answer.run.Bounded (Channel.Request.read = ·)) :
    Converses (exchange index argument check answer) used sent r ↔
      sent = [frameBytes index argument check] ∧ Reads answer.run used r := by
  constructor
  · rintro ⟨log, course, rfl, rfl⟩
    obtain ⟨inner, rfl, framed⟩ := follows_framed.mp course
    obtain ⟨rest, rfl, answered⟩ := follows_sending_bind.mp framed
    have read : ∀ x ∈ rest, x.request = .read := fun x mem => (answered.bounded only x mem).symm
    exact ⟨frames_exchange _ read, rest, answered, (reads_exchange _ rest).symm⟩
  · rintro ⟨rfl, rest, answered, rfl⟩
    have read : ∀ x ∈ rest, x.request = .read := fun x mem => (answered.bounded only x mem).symm
    exact ⟨_, follows_framed.mpr ⟨_, rfl, follows_sending_bind.mpr ⟨rest, rfl, answered⟩⟩,
      reads_exchange _ rest, frames_exchange _ read⟩

private theorem framing_reading {answer : Session α}
    (only : answer.run.Bounded (Channel.Request.read = ·)) :
    Framing (fun _ => True) (exchange index argument check answer) := by
  refine framing_framed trivial trivial trivial ?_
  refine bounded_session_bind (bounded_always (bounded_writeAll ?_)) fun _ => only.imp ?_
  · exact fun b _ => ⟨trivial, .inr ⟨b, rfl⟩⟩
  · rintro _ rfl
    exact ⟨trivial, .inl rfl⟩

private theorem converses_exchange_bind {answer : Session β}
    (only : answer.run.Bounded (Channel.Request.read = ·)) {next : β → Session α} :
    Converses (exchange index argument check answer >>= next) used sent r ↔
      (∃ e, r = .error e ∧ sent = [frameBytes index argument check] ∧
        Reads answer.run used (.error e)) ∨
      ∃ b bytes rest later, used = bytes ++ rest ∧ sent = frameBytes index argument check :: later ∧
        Reads answer.run bytes (.ok b) ∧ Converses (next b) rest later r := by
  rw [converses_bind (framing_reading only)]
  simp only [converses_exchange only]
  constructor
  · rintro (failed | ⟨b, bytes, rest, _, later, rfl, rfl, ⟨rfl, answered⟩, went⟩)
    · exact .inl failed
    · exact .inr ⟨b, bytes, rest, later, rfl, rfl, answered, went⟩
  · rintro (failed | ⟨b, bytes, rest, later, rfl, rfl, answered, went⟩)
    · exact .inl failed
    · exact .inr ⟨b, bytes, rest, _, later, rfl, rfl, ⟨rfl, answered⟩, went⟩

/-- A command with a status is followed by what comes of that, or there is none. -/
theorem converses_status {next : R1 → Session α} :
    Converses (exchange index argument check readR1 >>= next) used sent r ↔
      (used = silence ∧ sent = [frameBytes index argument check] ∧ r = .error .timeout) ∨
      ∃ status v rest later, used = status ++ rest ∧ sent = frameBytes index argument check :: later ∧
        IsStatus status v ∧ Converses (next ⟨v⟩) rest later r := by
  rw [converses_exchange_bind (bounded_readR1 rfl)]
  simp only [reads_readR1]
  constructor
  · rintro (⟨e, rfl, rfl, ⟨_, _, ⟨⟩⟩ | ⟨rfl, ⟨⟩⟩⟩ | ⟨_, status, rest, later, rfl, rfl, answered, went⟩)
    · exact .inl ⟨rfl, rfl, rfl⟩
    · rcases answered with ⟨v, answered, ⟨⟩⟩ | ⟨-, ⟨⟩⟩
      exact .inr ⟨status, v, rest, later, rfl, rfl, answered, went⟩
  · rintro (⟨rfl, rfl, rfl⟩ | ⟨status, v, rest, later, rfl, rfl, answered, went⟩)
    · exact .inl ⟨_, rfl, rfl, .inr ⟨rfl, rfl⟩⟩
    · exact .inr ⟨_, status, rest, later, rfl, rfl, .inl ⟨v, answered, rfl⟩, went⟩

theorem converses_long {f : R1 → UInt8 → UInt8 → UInt8 → UInt8 → β} {next : β → Session α} :
    Converses (exchange index argument check (readLong f) >>= next) used sent r ↔
      (used = silence ∧ sent = [frameBytes index argument check] ∧ r = .error .timeout) ∨
      ∃ status v b0 b1 b2 b3 rest later, used = status ++ [b0, b1, b2, b3] ++ rest ∧
        sent = frameBytes index argument check :: later ∧ IsStatus status v ∧
        Converses (next (f ⟨v⟩ b0 b1 b2 b3)) rest later r := by
  rw [converses_exchange_bind (bounded_readLong rfl f)]
  simp only [reads_readLong]
  constructor
  · rintro (⟨e, rfl, rfl, failed⟩ | ⟨_, bytes, rest, later, rfl, rfl, answered, went⟩)
    · rcases failed with ⟨_, _, _, _, _, _, _, _, ⟨⟩⟩ | ⟨rfl, ⟨⟩⟩
      exact .inl ⟨rfl, rfl, rfl⟩
    · rcases answered with ⟨status, v, b0, b1, b2, b3, answered, rfl, ⟨⟩⟩ | ⟨-, ⟨⟩⟩
      exact .inr ⟨status, v, b0, b1, b2, b3, rest, later, rfl, rfl, answered, went⟩
  · rintro (⟨rfl, rfl, rfl⟩ | ⟨status, v, b0, b1, b2, b3, rest, later, rfl, rfl, answered, went⟩)
    · exact .inl ⟨_, rfl, rfl, .inr ⟨rfl, rfl⟩⟩
    · exact .inr ⟨_, _, rest, later, rfl, rfl,
        .inl ⟨status, v, b0, b1, b2, b3, answered, rfl, rfl⟩, went⟩

end Exchange

end Converses

end BoardSupport.SdCard

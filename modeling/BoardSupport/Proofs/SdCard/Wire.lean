import BoardSupport.Proofs.Program.Failing
import BoardSupport.SdCard.Driver

/-! What the card's driver puts on the wire. Apart from the clocks at power-up and the change of
speed at the end of a bring-up, every course of the driver is a sequence of frames, with waits in
between (`Framed`). -/
namespace BoardSupport.SdCard

open Spi Program

section Session

variable {α β : Type} {s : Session α} {log : List (Exchange Channel)}

theorem follows_always {p : Program Channel α} {r : Except SdError α} :
    Follows (always p).run log r ↔ ∃ a, r = .ok a ∧ Follows p log a := follows_lift

theorem run_always_bind (p : Program Channel α) (f : α → Session β) :
    (always p >>= f).run = p >>= fun a => (f a).run := by
  rw [always, ExceptT.run_bind, ExceptT.run_lift, bind_map_left]

variable {allowed : Channel.Request → Prop}

theorem bounded_always {p : Program Channel α} (hp : p.Bounded allowed) :
    (always p).run.Bounded allowed := bounded_lift hp

theorem bounded_throw (e : SdError) : (throw e : Session α).run.Bounded allowed := trivial

theorem bounded_pure (a : α) : (pure a : Session α).run.Bounded allowed := trivial

theorem bounded_ite {c : Prop} [Decidable c] {s t : Session α} (hs : s.run.Bounded allowed)
    (ht : t.run.Bounded allowed) : (if c then s else t).run.Bounded allowed := by
  split
  · exact hs
  · exact ht

end Session

section Channel

variable {allowed : Channel.Request → Prop}

theorem bounded_writeAll {bytes : List UInt8} (h : ∀ b ∈ bytes, allowed (.write b)) :
    (Channel.writeAll bytes).Bounded allowed :=
  bounded_forM fun b hb => bounded_call (h b hb)

theorem bounded_readAfter (h : allowed .read) (earlier : List UInt8) (n : Nat) :
    (Channel.readAfter earlier n).Bounded allowed := by
  induction n generalizing earlier with
  | zero => trivial
  | succ n ih => exact (bounded_call h).bind fun b => ih (b :: earlier)

theorem bounded_readUntil (h : allowed .read) (p : UInt8 → Bool) (polls : Nat) :
    (Channel.readUntil p polls).Bounded allowed := by
  induction polls with
  | zero => trivial
  | succ n ih =>
    refine (bounded_call h).bind fun b => ?_
    split
    · trivial
    · exact ih

theorem fill_toList {n : Nat} (buffer : Vector UInt8 n) :
    Vector.toList <$> Channel.fill buffer = buffer.toList.mapM fun _ => Channel.read := by
  rw [Channel.fill, ← Vector.toList_toArray, ← Array.toList_mapM, ← Vector.toArray_mapM, ← comp_map]
  rfl

theorem bounded_fill {n : Nat} (h : allowed .read) (buffer : Vector UInt8 n) :
    (Channel.fill buffer).Bounded allowed := by
  have each (places : List UInt8) : (places.mapM fun _ => Channel.read).Bounded allowed := by
    induction places with
    | nil => trivial
    | cons place places ih =>
      rw [List.mapM_cons]
      exact (bounded_call h).bind fun _ => ih.bind fun _ => trivial
  have whole := each buffer.toList
  rw [← fill_toList, map_eq_pure_bind] at whole
  exact whole.of_bind

end Channel

section Replies

variable {allowed : Channel.Request → Prop}

theorem bounded_readR1 (h : allowed .read) : readR1.run.Bounded allowed := by
  refine (bounded_readUntil h _ 9).bind fun found => ?_
  cases found <;> trivial

theorem bounded_readLong {α : Type} (h : allowed .read) (f : R1 → UInt8 → UInt8 → UInt8 → UInt8 → α) :
    (readLong f).run.Bounded allowed := by
  have byte := bounded_always (bounded_call h)
  exact bounded_session_bind (bounded_readR1 h) fun _ => bounded_session_bind byte fun _ =>
    bounded_session_bind byte fun _ => bounded_session_bind byte fun _ =>
    bounded_session_bind byte fun _ => bounded_pure _

theorem bounded_expectReady (h : allowed .read) (index : UInt8) :
    (expectReady index).run.Bounded allowed :=
  bounded_session_bind (bounded_readR1 h) fun _ => bounded_ite (bounded_pure _) (bounded_throw _)

theorem bounded_awaitData (h : allowed .read) : awaitData.run.Bounded allowed := by
  refine (bounded_readUntil h _ 4096).bind fun found => ?_
  split <;> trivial

theorem bounded_awaitAccepted (h : allowed .read) : awaitAccepted.run.Bounded allowed := by
  refine (bounded_readUntil h _ 4096).bind fun found => ?_
  cases found <;> trivial

theorem bounded_awaitWritten (h : allowed .read) : awaitWritten.run.Bounded allowed := by
  refine (bounded_readUntil h _ 65536).bind fun found => ?_
  cases found <;> trivial

theorem bounded_fetchInto (read : allowed .read) (write : ∀ b, allowed (.write b)) (address : UInt32)
    (buffer : Block) : (fetchInto address buffer).Bounded allowed := by
  refine (bounded_writeAll fun b _ => write b).bind fun _ => ?_
  have awaited : (expectReady 17 >>= fun _ => awaitData).run.Bounded allowed :=
    bounded_session_bind (bounded_expectReady read 17) fun _ => bounded_awaitData read
  refine awaited.bind fun found => ?_
  cases found with
  | error e => trivial
  | ok _ => exact (bounded_fill read buffer).bind fun _ => (bounded_readAfter read [] 2).bind fun _ => trivial

theorem bounded_deposit (read : allowed .read) (write : ∀ b, allowed (.write b)) (address : UInt32)
    (data : List UInt8) : (deposit address data).run.Bounded allowed := by
  have bytes (bytes : List UInt8) : (always (Channel.writeAll bytes)).run.Bounded allowed :=
    bounded_always (bounded_writeAll fun b _ => write b)
  refine bounded_session_bind (bytes _) fun _ => ?_
  refine bounded_session_bind (bounded_expectReady read 24) fun _ => ?_
  refine bounded_session_bind (bytes _) fun _ => ?_
  exact bounded_session_bind (bounded_awaitAccepted read) fun _ => bounded_awaitWritten read

end Replies

section Frames

/-- The requests that move bytes. -/
def MovesByte (r : Channel.Request) : Prop := r = .read ∨ ∃ b, r = .write b

/-- Exchanges with the card selected, and idle clocks on either side of both edges. -/
def frameOf (inner : List (Exchange Channel)) : List (Exchange Channel) :=
  [⟨.write 0xFF, ()⟩, ⟨.select, ()⟩, ⟨.write 0xFF, ()⟩] ++ inner ++
    [⟨.write 0xFF, ()⟩, ⟨.deselect, ()⟩, ⟨.write 0xFF, ()⟩]

/-- Frames that move bytes, one after another, with waits in between. -/
inductive Framed : List (Exchange Channel) → Prop
  | nil : Framed []
  | wait {log : List (Exchange Channel)} (ms : UInt32) (rest : Framed log) :
      Framed (⟨.delay ms, ()⟩ :: log)
  | frame {inner log : List (Exchange Channel)} (moves : ∀ x ∈ inner, MovesByte x.request)
      (rest : Framed log) : Framed (frameOf inner ++ log)

theorem Framed.append {first second : List (Exchange Channel)} (h : Framed first)
    (h' : Framed second) : Framed (first ++ second) := by
  induction h with
  | nil => exact h'
  | wait ms _ ih => exact .wait ms ih
  | frame moves _ ih => exact List.append_assoc .. ▸ .frame moves ih

variable {α β : Type} {allowed : Channel.Request → Prop}

theorem follows_whileSelected {body : Program Channel α} {log : List (Exchange Channel)} {a : α} :
    Follows (whileSelected body) log a ↔ ∃ inner, log = frameOf inner ∧ Follows body inner a := by
  have unfolded : whileSelected body =
      .ask (I := Channel) (.write 0xFF) fun _ => .ask (I := Channel) .select fun _ =>
      .ask (I := Channel) (.write 0xFF) fun _ => body >>= fun result =>
      .ask (I := Channel) (.write 0xFF) fun _ => .ask (I := Channel) .deselect fun _ =>
      .ask (I := Channel) (.write 0xFF) fun _ => .done result := rfl
  rw [unfolded]
  simp only [follows_ask, follows_bind, follows_done]
  constructor
  · rintro ⟨_, _, rfl, _, _, rfl, _, _, rfl, result, inner, _, rfl, h,
      _, _, rfl, _, _, rfl, _, _, rfl, rfl, rfl⟩
    exact ⟨inner, rfl, h⟩
  · rintro ⟨inner, rfl, h⟩
    exact ⟨(), _, rfl, (), _, rfl, (), _, rfl, a, inner, _, rfl, h,
      (), _, rfl, (), _, rfl, (), _, rfl, rfl, rfl⟩

theorem follows_framed {body : Session α} {log : List (Exchange Channel)} {r : Except SdError α} :
    Follows (framed body).run log r ↔ ∃ inner, log = frameOf inner ∧ Follows body.run inner r :=
  follows_whileSelected

theorem bounded_whileSelected (select : allowed .select) (deselect : allowed .deselect)
    (pads : allowed (.write 0xFF)) {body : Program Channel α} (h : body.Bounded allowed) :
    (whileSelected body).Bounded allowed :=
  (bounded_call pads).bind fun _ => (bounded_call select).bind fun _ =>
    (bounded_call pads).bind fun _ => h.bind fun _ => (bounded_call pads).bind fun _ =>
    (bounded_call deselect).bind fun _ => (bounded_call pads).bind fun _ => trivial

/-- Whatever the replies, the session ends, and it makes only frames and waits of allowed requests. -/
structure Framing (allowed : Channel.Request → Prop) (s : Session α) : Prop where
  bounded : s.run.Bounded allowed
  framed : ∀ {log r}, Follows s.run log r → Framed log

theorem Framing.imp {allowed' : Channel.Request → Prop} (h : ∀ r, allowed r → allowed' r)
    {s : Session α} (hs : Framing allowed s) : Framing allowed' s :=
  ⟨hs.bounded.imp h, hs.framed⟩

/-- One frame is all that a session makes of what it does with the card selected. -/
theorem framing_whileSelected (select : allowed .select) (deselect : allowed .deselect)
    (pads : allowed (.write 0xFF)) {body : Program Channel α} (f : α → Except SdError β)
    (h : body.Bounded fun r => allowed r ∧ MovesByte r) :
    Framing allowed (ExceptT.mk (whileSelected body >>= fun a => .done (f a))) where
  bounded := (bounded_whileSelected select deselect pads (h.imp fun _ both => both.1)).bind fun _ => trivial
  framed := by
    intro log r course
    obtain ⟨a, first, second, rfl, selected, ended⟩ := follows_bind.mp course
    obtain ⟨rfl, -⟩ := follows_done.mp ended
    obtain ⟨inner, rfl, follows⟩ := follows_whileSelected.mp selected
    have moves : ∀ x ∈ inner, MovesByte x.request := follows.bounded (h.imp fun _ both => both.2)
    exact .frame moves .nil

theorem framing_framed (select : allowed .select) (deselect : allowed .deselect)
    (pads : allowed (.write 0xFF)) {body : Session α}
    (h : body.run.Bounded fun r => allowed r ∧ MovesByte r) : Framing allowed (framed body) := by
  have whole : whileSelected body.run >>= (fun r => .done (id r)) = whileSelected body.run := bind_pure _
  rw [framed, ← whole]
  exact framing_whileSelected select deselect pads id h

theorem Framing.bind {s : Session α} {f : α → Session β} (hs : Framing allowed s)
    (hf : ∀ a, Framing allowed (f a)) : Framing allowed (s >>= f) where
  bounded := bounded_session_bind hs.bounded fun a => (hf a).bounded
  framed := by
    intro log r course
    rcases follows_session_bind.mp course with ⟨e, rfl, h⟩ | ⟨a, first, second, rfl, h, rest⟩
    · exact hs.framed h
    · exact (hs.framed h).append ((hf a).framed rest)

theorem framing_of_done (r : Except SdError α) :
    Framing allowed (ExceptT.mk (.done r) : Session α) where
  bounded := trivial
  framed := by
    intro log r course
    obtain ⟨rfl, -⟩ := follows_done.mp course
    exact .nil

theorem framing_pure (a : α) : Framing allowed (pure a) := framing_of_done (.ok a)

theorem framing_throw (e : SdError) : Framing allowed (throw e : Session α) :=
  framing_of_done (.error e)

theorem framing_ite {c : Prop} [Decidable c] {s t : Session α} (hs : Framing allowed s)
    (ht : Framing allowed t) : Framing allowed (if c then s else t) := by
  split
  · exact hs
  · exact ht

theorem framing_delay {ms : UInt32} (h : allowed (.delay ms)) : Framing allowed (always (Channel.delay ms)) where
  bounded := bounded_always (bounded_call h)
  framed := by
    intro log r course
    obtain ⟨_, rfl, follows⟩ := follows_always.mp course
    obtain rfl := follows_call.mp follows
    exact .wait ms .nil

end Frames

section Courses

/-- The request does not write the first byte of a command that moves a block. -/
def StartsNoTransfer (r : Channel.Request) : Prop :=
  r ≠ .write (0x40 ||| 17) ∧ r ≠ .write (0x40 ||| 24)

instance : DecidablePred StartsNoTransfer := fun _ => inferInstanceAs (Decidable (_ ∧ _))

theorem framing_exchange {index : UInt8} {argument : UInt32} {check : UInt8} {α : Type}
    {answer : Session α} (bytes : ∀ b ∈ commandBytes index argument check, StartsNoTransfer (.write b))
    (h : answer.run.Bounded (Channel.Request.read = ·)) :
    Framing StartsNoTransfer (exchange index argument check answer) := by
  refine framing_framed (by decide) (by decide) (by decide) ?_
  refine bounded_session_bind (bounded_always ?_) fun _ => h.imp ?_
  · exact bounded_writeAll fun b hb => ⟨bytes b hb, .inr ⟨b, rfl⟩⟩
  · rintro _ rfl
    exact ⟨by decide, .inl rfl⟩

theorem framing_goIdle : Framing StartsNoTransfer goIdle :=
  framing_exchange (by decide +kernel) (bounded_readR1 rfl)

theorem framing_sendInterfaceCondition : Framing StartsNoTransfer sendInterfaceCondition :=
  framing_exchange (by decide +kernel) (bounded_readLong rfl _)

theorem framing_readOcr : Framing StartsNoTransfer readOcr :=
  framing_exchange (by decide +kernel) (bounded_readLong rfl _)

theorem framing_announceSpecific : Framing StartsNoTransfer announceSpecific :=
  framing_exchange (by decide +kernel) (bounded_readR1 rfl)

theorem framing_sendOperatingCondition (highCapacity : Bool) :
    Framing StartsNoTransfer (sendOperatingCondition highCapacity) := by
  refine framing_announceSpecific.bind fun r1 =>
    framing_ite (framing_throw _) (framing_exchange ?_ (bounded_readR1 rfl))
  cases highCapacity <;> decide +kernel

theorem framing_awaitReady (highCapacity : Bool) (attempts : Nat) :
    Framing StartsNoTransfer (awaitReady highCapacity attempts) := by
  induction attempts with
  | zero => exact framing_throw _
  | succ n ih =>
    refine (framing_sendOperatingCondition highCapacity).bind fun r1 => ?_
    refine framing_ite (framing_pure _) (framing_ite (framing_throw _) ?_)
    exact (framing_delay ⟨nofun, nofun⟩).bind fun _ => ih

theorem framing_readCapacity : Framing StartsNoTransfer readCapacity :=
  framing_readOcr.bind fun _ => framing_ite (framing_throw _)
    (framing_ite (framing_throw _) (framing_pure _))

theorem framing_identify : Framing StartsNoTransfer identify := by
  refine framing_goIdle.bind fun r1 => framing_ite (framing_throw _) ?_
  refine framing_sendInterfaceCondition.bind fun r7 => framing_ite (framing_throw _) ?_
  refine (framing_awaitReady _ 100).bind fun _ => ?_
  exact framing_ite (framing_pure _) framing_readCapacity

/-- The block that is read into a buffer. -/
def readingBlock (kind : Option Kind) (block : UInt32) (buffer : Block) : Session Block :=
  ExceptT.mk (readInto kind block buffer >>= fun x => .done (x.1.map fun _ => x.2))

/-- A block moves only from a card of known kind. -/
theorem framing_readingBlock (kind : Option Kind) (block : UInt32) (buffer : Block) :
    Framing (fun r => kind = none → StartsNoTransfer r) (readingBlock kind block buffer) := by
  rw [readingBlock, readInto]
  cases kind with
  | none => exact framing_throw .notInitialized
  | some kind =>
    split
    next e _ => exact framing_throw e
    next address _ =>
      exact framing_whileSelected nofun nofun nofun _
        (bounded_fetchInto ⟨nofun, .inl rfl⟩ (fun b => ⟨nofun, .inr ⟨b, rfl⟩⟩) address buffer)

theorem framing_writeBlock (kind : Option Kind) (block : UInt32) (data : List UInt8) :
    Framing (fun r => kind = none → StartsNoTransfer r) (writeBlock kind block data) := by
  cases kind with
  | none => exact framing_throw .notInitialized
  | some kind =>
    refine (framing_of_done _).bind fun address => framing_framed nofun nofun nofun ?_
    exact bounded_deposit ⟨nofun, .inl rfl⟩ (fun b => ⟨nofun, .inr ⟨b, rfl⟩⟩) address data

theorem bounded_powerUp : powerUp.Bounded StartsNoTransfer := by
  have pads : pad.Bounded StartsNoTransfer := bounded_call (by decide)
  refine (bounded_call (by decide)).bind fun _ => ?_
  refine (bounded_call ⟨nofun, nofun⟩).bind fun _ => pads.bind fun _ => ?_
  refine (bounded_call (by decide)).bind fun _ => pads.bind fun _ => ?_
  exact bounded_forM fun _ _ => pads

theorem bounded_bringUp : bringUp.run.Bounded StartsNoTransfer :=
  bounded_session_bind (bounded_always bounded_powerUp) fun _ =>
    bounded_session_bind framing_identify.bounded fun _ =>
    bounded_session_bind (bounded_always (bounded_call (by decide))) fun _ => bounded_pure _

/-- The requests of a card that is left unselected: idle clocks and waits. -/
def Clocks (r : Channel.Request) : Prop := r = .write 0xFF ∨ ∃ ms, r = .delay ms

/-- At power-up the clock slows down first, and one release stands among idle clocks. -/
theorem follows_powerUp {log : List (Exchange Channel)} {u : Unit} (h : Follows powerUp log u) :
    ∃ before after, log = ⟨.throttle throttleInit, ()⟩ :: (before ++ ⟨.deselect, ()⟩ :: after) ∧
      (∀ x ∈ before, Clocks x.request) ∧ ∀ x ∈ after, Clocks x.request := by
  have pads : pad.Bounded Clocks := bounded_call (.inl rfl)
  have split : powerUp = (Channel.throttle throttleInit >>= fun _ =>
      (Channel.delay 1 >>= fun _ => pad) >>= fun _ => Channel.deselect >>=
      fun _ => pad >>= fun _ => (List.range 10).forM fun _ => pad) := rfl
  rw [split] at h
  obtain ⟨_, _, _, rfl, slow, rest⟩ := follows_bind.mp h
  obtain ⟨_, before, _, rfl, lead, rest⟩ := follows_bind.mp rest
  obtain ⟨_, _, after, rfl, release, trail⟩ := follows_bind.mp rest
  obtain rfl := follows_call.mp slow
  obtain rfl := follows_call.mp release
  refine ⟨before, after, rfl, lead.bounded ?_, trail.bounded ?_⟩
  · exact (bounded_call (.inr ⟨1, rfl⟩)).bind fun _ => pads
  · exact pads.bind fun _ => bounded_forM fun _ _ => pads

/-- A bring-up powers the card up, identifies it in frames, and speeds up only if that succeeds. -/
theorem follows_bringUp {log : List (Exchange Channel)} {r : Except SdError Kind}
    (h : Follows bringUp.run log r) :
    ∃ power frames, (∃ u, Follows powerUp power u) ∧ Follows identify.run frames r ∧
      log = power ++ frames ++ (if r.isOk then [⟨.throttle throttleRun, ()⟩] else []) := by
  rcases follows_session_bind.mp h with ⟨e, rfl, failed⟩ | ⟨_, power, _, rfl, powered, rest⟩
  · obtain ⟨_, ⟨⟩, _⟩ := follows_always.mp failed
  obtain ⟨u, -, powered⟩ := follows_always.mp powered
  rcases follows_session_bind.mp rest with ⟨e, rfl, failed⟩ | ⟨kind, frames, _, rfl, found, rest⟩
  · exact ⟨power, _, ⟨u, powered⟩, failed, (List.append_nil _).symm⟩
  rcases follows_session_bind.mp rest with ⟨e, rfl, failed⟩ | ⟨_, _, _, rfl, fast, ended⟩
  · obtain ⟨_, ⟨⟩, _⟩ := follows_always.mp failed
  obtain ⟨_, -, fast⟩ := follows_always.mp fast
  obtain rfl := follows_call.mp fast
  obtain ⟨rfl, rfl⟩ := follows_done.mp ended
  exact ⟨power, frames, ⟨u, powered⟩, found, (List.append_assoc ..).symm⟩

end Courses

end BoardSupport.SdCard

import BoardSupport.Proofs.Boot.RoundTrip

/-! The host refuses to frame exactly the images that a device would not take whole. -/
namespace BoardSupport.Boot

open Program Loader

/-- The window that holds every address. -/
def Window.full : Window := ⟨0, 0xFFFFFFFF⟩

/-- A receiver that finds these polls, and may load anywhere, takes every byte and stores this image. -/
def Delivers (polls : List (Option UInt8)) (address : UInt32) (payload : List UInt8) : Prop :=
  ∃ image rest log,
    Ends Target.polled.recorded (receive .full) (polls, []) (.ok (.ok image) (rest, log)) ∧
    rest.reduceOption = [] ∧ Target.stores log = placed address payload

/-- How host and device agree on an image that is framed whether or not it is fit for it, when the
device finds the frame in these polls. -/
structure Agreement (address : UInt32) (payload : List UInt8) (polls : List (Option UInt8)) : Prop where
  ok_iff : frame address payload = .ok (rawFrame address payload) ↔ Delivers polls address payload
  refused : ¬ Delivers polls address payload → ∃ e, frame address payload = .error e
  /-- The host names the first ETX, and the device stores nothing from there on. -/
  etx : etx ∈ payload → ∃ offset, payload[offset]? = some etx ∧ etx ∉ payload.take offset ∧
    frame address payload = .error (.containsEtx offset) ∧
    (FrameError.containsEtx offset).message = "image contains ETX (0x03) at offset " ++
      Text.hexMarked offset ++ ", which would end the transfer early; this protocol can't send it" ∧
    ∃ result rest log kept,
      Ends Target.polled.recorded (receive .full) (polls, []) (.ok result (rest, log)) ∧
      kept ≤ offset ∧ Target.stores log = placed address (payload.take kept)
  /-- The device fills memory to its top and gives up. -/
  past : Boot.etx ∉ payload → UInt32.size < address.toNat + payload.length →
    frame address payload = .error (.pastMemory payload.length address) ∧
    ∃ rest log,
      Ends Target.polled.recorded (receive .full) (polls, [])
        (.ok (.error .addressOverflow) (rest, log)) ∧
      Target.stores log = placed address (payload.take (UInt32.size - address.toNat)) ∧
      (Target.stores log).length = UInt32.size - address.toNat

section Device

variable {address : UInt32} {payload before after : List UInt8}

private theorem mem_full (address : UInt32) : address ∈ Window.full := by
  have least : (0 : UInt32) ≤ address := UInt32.le_iff_toNat_le.mpr (Nat.zero_le _)
  have most : address ≤ (0xFFFFFFFF : UInt32) := by
    have bound := address.toNat_lt_size
    exact UInt32.le_iff_toNat_le.mpr (Nat.le_of_lt_succ bound)
  exact ⟨least, most⟩

private theorem allFit_full (no_etx : etx ∉ payload)
    (room : address.toNat + payload.length ≤ UInt32.size) : AllFit .full address 0 payload :=
  allFit_image.mpr ⟨no_etx, room, fun _ _ => mem_full _⟩

/-- An image that holds something unfit is cut there, and the rest of the frame is left. -/
private theorem takeAll_cut {window : Window} {last : UInt8} (after : List UInt8) (fits : AllFit window address 0 before)
    (stops : ¬ Fits window address before.length last) :
    Phase.idle.takeAll window (rawFrame address (before ++ last :: after)) =
      (placed address before, some (verdict address before.length last, after ++ [etx])) := by
  have quiet : soh ∉ ([] : List UInt8) := List.not_mem_nil
  have room := (allFit_image.mp fits).2.1
  have split : rawFrame address (before ++ last :: after) =
      (headerAfter [] quiet address).bytes ++ (before ++ last :: (after ++ [etx])) := by
    simp [rawFrame, headerAfter_bytes]
  rw [split, takeAll_opening, headerAfter_start, takeAll_image fits, Nat.zero_add,
    takeAll_stops stops room, List.append_nil, placed]

private theorem takeAll_etx (no_etx : etx ∉ before)
    (room : address.toNat + before.length ≤ UInt32.size) :
    Phase.idle.takeAll .full (rawFrame address (before ++ etx :: after)) =
      (placed address before, some (.ok ⟨address, UInt32.ofNat before.length⟩, after ++ [etx])) := by
  have stops : ¬ Fits .full address before.length etx := fun h => h.1 rfl
  rw [takeAll_cut after (allFit_full no_etx room) stops, verdict, if_pos rfl]

/-- An image without ETX up to the top of memory, and with a byte more, fills memory. -/
private theorem takeAll_overflow {kept : Nat} (address : UInt32) (full : address.toNat + kept = UInt32.size)
    (more : kept < payload.length) (no_etx : etx ∉ payload.take (kept + 1)) :
    Phase.idle.takeAll .full (rawFrame address payload) =
      (placed address (payload.take kept),
        some (.error .addressOverflow, payload.drop (kept + 1) ++ [etx])) := by
  have split : payload = payload.take kept ++ payload[kept] :: payload.drop (kept + 1) := by simp
  have kept_length : (payload.take kept).length = kept := by simp; omega
  have clean : etx ∉ payload.take kept ∧ etx ≠ payload[kept] := by
    rw [List.take_succ_eq_append_getElem more, List.mem_append, not_or, List.mem_singleton] at no_etx
    exact no_etx
  have fits : AllFit .full address 0 (payload.take kept) := allFit_full clean.1 (by omega)
  have stops : ¬ Fits .full address (payload.take kept).length payload[kept] := by
    intro h
    have room := h.2.1
    omega
  have cut := takeAll_cut (payload.drop (kept + 1)) fits stops
  rw [← split] at cut
  rw [cut, verdict, if_neg (Ne.symm clean.2), if_pos (by omega)]

variable {polls : List (Option UInt8)} {stored : List (UInt32 × UInt8)}
  {result : Except BootError Image} {left : List UInt8}

private theorem ends_of_takeAll
    (h : Phase.idle.takeAll .full polls.reduceOption = (stored, some (result, left))) :
    ∃ rest log, Ends Target.polled.recorded (receive .full) (polls, []) (.ok result (rest, log)) ∧
      rest.reduceOption = left ∧ Target.stores log = stored := by
  obtain ⟨course, before, last, rest, -, left_eq, loads, ends⟩ := receive_finishes h
  exact ⟨rest, Target.greeting ++ course, ends, left_eq, loads.stored⟩

/-- Whether an image is delivered can be read off how its bytes end the transfer. -/
private theorem delivers_iff
    (h : Phase.idle.takeAll .full polls.reduceOption = (stored, some (result, left))) :
    Delivers polls address payload ↔
      (∃ image, result = .ok image) ∧ left = [] ∧ stored = placed address payload := by
  obtain ⟨rest, log, ends, left_eq, stored_eq⟩ := ends_of_takeAll h
  constructor
  · rintro ⟨image, rest', log', ends', nothing, stores⟩
    cases ends.unique ends'
    exact ⟨⟨image, rfl⟩, left_eq.symm.trans nothing, stored_eq.symm.trans stores⟩
  · rintro ⟨⟨image, rfl⟩, nothing, stores⟩
    exact ⟨image, rest, log, ends, left_eq.trans nothing, stored_eq.trans stores⟩

end Device

section Host

variable {address : UInt32} {payload before after : List UInt8}

private theorem frame_etx (no_etx : etx ∉ before) :
    frame address (before ++ etx :: after) = .error (.containsEtx before.length) := by
  rw [frame, checkPayload_etx no_etx]

private theorem frame_past (no_etx : etx ∉ payload)
    (long : UInt32.size < address.toNat + payload.length) :
    frame address payload = .error (.pastMemory payload.length address) := by
  simp only [frame, checkPayload_clean no_etx, if_pos long]

end Host

section Cases

variable {address : UInt32} {payload before after : List UInt8} {polls : List (Option UInt8)}

/-- An image with ETX in it ends at its first ETX, or before it at the top of memory, and in either
case something of the frame is left or the transfer fails. -/
private theorem takeAll_containing (address : UInt32) (no_etx : etx ∉ before) (after : List UInt8) :
    ∃ kept result left, kept ≤ before.length ∧
      Phase.idle.takeAll .full (rawFrame address (before ++ etx :: after)) =
        (placed address ((before ++ etx :: after).take kept), some (result, left)) ∧
      ¬ ((∃ image, result = .ok image) ∧ left = []) := by
  by_cases room : address.toNat + before.length ≤ UInt32.size
  · refine ⟨before.length, .ok ⟨address, UInt32.ofNat before.length⟩, after ++ [etx],
      Nat.le_refl _, ?_, fun unfit => by simp at unfit⟩
    rw [takeAll_etx no_etx room, List.take_left]
  · have bound := address.toNat_lt_size
    have kept_lt : UInt32.size - address.toNat < before.length := by omega
    have clean : etx ∉ (before ++ etx :: after).take (UInt32.size - address.toNat + 1) := by
      rw [List.take_append_of_le_length kept_lt]
      exact fun mem => no_etx (List.mem_of_mem_take mem)
    have taken := takeAll_overflow address (by omega) (by simp; omega) clean
    exact ⟨_, _, _, Nat.le_of_lt kept_lt, taken, fun unfit => by simp at unfit⟩

private theorem agreement_of_etx (no_etx : etx ∉ before)
    (heard : polls.reduceOption = rawFrame address (before ++ etx :: after)) :
    Agreement address (before ++ etx :: after) polls := by
  obtain ⟨kept, result, left, kept_le, taken, unfit⟩ := takeAll_containing address no_etx after
  rw [← heard] at taken
  have undelivered : ¬ Delivers polls address (before ++ etx :: after) := by
    rw [delivers_iff taken]
    exact fun ⟨succeeded, nothing, _⟩ => unfit ⟨succeeded, nothing⟩
  have refused : frame address (before ++ etx :: after) = .error (.containsEtx before.length) :=
    frame_etx no_etx
  obtain ⟨rest, log, ends, -, stored⟩ := ends_of_takeAll taken
  refine ⟨?_, fun _ => ⟨_, refused⟩, fun _ => ?_, fun free => absurd (by simp) free⟩
  · rw [refused]
    exact ⟨nofun, fun delivered => absurd delivered undelivered⟩
  · exact ⟨before.length, by simp, by simpa using no_etx, refused, rfl, result, rest, log, kept,
      ends, kept_le, stored⟩

private theorem agreement_of_past (no_etx : etx ∉ payload)
    (long : UInt32.size < address.toNat + payload.length)
    (heard : polls.reduceOption = rawFrame address payload) : Agreement address payload polls := by
  have bound := address.toNat_lt_size
  have clean : etx ∉ payload.take (UInt32.size - address.toNat + 1) :=
    fun mem => no_etx (List.mem_of_mem_take mem)
  have taken := takeAll_overflow address (by omega) (by omega) clean
  rw [← heard] at taken
  have undelivered : ¬ Delivers polls address payload := by
    rw [delivers_iff taken]
    rintro ⟨⟨image, failed⟩, -⟩
    cases failed
  have refused := frame_past no_etx long
  obtain ⟨rest, log, ends, -, stored⟩ := ends_of_takeAll taken
  refine ⟨?_, fun _ => ⟨_, refused⟩, fun mem => absurd mem no_etx, fun _ _ => ?_⟩
  · rw [refused]
    exact ⟨nofun, fun delivered => absurd delivered undelivered⟩
  · refine ⟨refused, rest, log, ends, stored, ?_⟩
    rw [stored, placed, placedFrom, List.length_mapIdx, List.length_take]
    omega

private theorem agreement_of_fit (no_etx : etx ∉ payload)
    (room : address.toNat + payload.length ≤ UInt32.size)
    (heard : polls.reduceOption = rawFrame address payload) : Agreement address payload polls := by
  have framed := frame_eq_ok_iff.mpr ⟨no_etx, room, rfl⟩
  have quiet : soh ∉ ([] : List UInt8) := List.not_mem_nil
  have taken := takeAll_rawFrame quiet (allFit_full no_etx room) []
  rw [List.nil_append, List.append_nil, ← heard] at taken
  have delivered : Delivers polls address payload :=
    (delivers_iff taken).mpr ⟨⟨_, rfl⟩, rfl, rfl⟩
  exact ⟨iff_of_true framed delivered, fun undelivered => absurd delivered undelivered,
    fun mem => absurd mem no_etx, fun _ long => absurd room (by omega)⟩

end Cases

/-- For every image, fit or not, and with any silence on the line: the host frames it exactly if the
device would take the frame whole and store the image as it is, and otherwise says why. -/
theorem frame_agrees (address : UInt32) (payload : List UInt8) (polls : List (Option UInt8))
    (heard : polls.reduceOption = rawFrame address payload) : Agreement address payload polls := by
  by_cases held : etx ∈ payload
  · obtain ⟨before, after, rfl, no_etx⟩ := List.eq_append_cons_of_mem held
    exact agreement_of_etx no_etx heard
  · by_cases long : UInt32.size < address.toNat + payload.length
    · exact agreement_of_past held long heard
    · exact agreement_of_fit held (by omega) heard

/-- Both checks of the host fail: the image runs past the top of memory, and ETX comes after that. -/
theorem frame_agrees_at_top :
    let payload : List UInt8 := [0x41, 0x42, 0x03]
    let polls := none :: (rawFrame 0xFFFFFFFF payload).map some ++ [none]
    polls.reduceOption = rawFrame 0xFFFFFFFF payload ∧ Agreement 0xFFFFFFFF payload polls :=
  ⟨by decide, frame_agrees 0xFFFFFFFF [0x41, 0x42, 0x03] _ (by decide)⟩

end BoardSupport.Boot

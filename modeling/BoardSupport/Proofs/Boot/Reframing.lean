import BoardSupport.Proofs.Boot.Confinement
import BoardSupport.Proofs.Boot.RoundTrip

/-! What a device has accepted the host can send again. The frame of the image that was stored is what the
device has taken, without the noise, and the device takes it to the same effect. -/
namespace BoardSupport.Boot

open Program Loader

/-- The bytes that were put into memory, in order. -/
def Target.payload (log : List (Exchange Target)) : List UInt8 := (stores log).map Prod.snd

/-- What a frame of an image is to a receiver that has accepted this image, when `rest` is what it has left
of its polls. -/
structure Reframes (window : Window) (image : Image) (polls rest : List (Option UInt8))
    (log : List (Exchange Target)) (framed : List UInt8) : Prop where
  /-- It is taken whole, and no more than it, with any silence on the line. The same bytes are stored at
  the same addresses in the same order. -/
  again {polls' : List (Option UInt8)} {tail : List UInt8} (heard : polls'.reduceOption = framed ++ tail) :
    ∃ taken rest' log', polls' = taken ++ rest' ∧ taken.reduceOption = framed ∧
      Ends Target.polled.recorded (receive window) (polls', []) (.ok (.ok image) (rest', log')) ∧
      Target.stores log' = Target.stores log
  /-- What had been taken before differs from it by noise ahead of SOH and between the address and STX. -/
  differs : ∃ (taken : List (Option UInt8)) (noise gap : List UInt8), polls = taken ++ rest ∧
    soh ∉ noise ∧ stx ∉ gap ∧
    taken.reduceOption = noise ++ (soh :: Word.toLittleEndian image.start) ++ gap ++
      (stx :: Target.payload log ++ [etx]) ∧
    framed = (soh :: Word.toLittleEndian image.start) ++ (stx :: Target.payload log ++ [etx])

section Parts

variable {window : Window} {start : UInt32} {data : List UInt8}

private theorem map_snd_placed (start : UInt32) (data : List UInt8) :
    (placed start data).map Prod.snd = data :=
  List.ext_getElem (by simp [placed, placedFrom]) fun i _ _ => by simp [placed, placedFrom]

/-- What is left of a stream tells what has been taken of it. -/
private theorem reduceOption_taken {taken rest : List (Option UInt8)} {front tail : List UInt8}
    (heard : (taken ++ rest).reduceOption = front ++ tail) (left : rest.reduceOption = tail) :
    taken.reduceOption = front := by
  rw [List.reduceOption_append, left] at heard
  exact List.append_cancel_right heard

private theorem opening_bytes (o : Opening) : o.bytes =
    o.noise ++ (soh :: Word.toLittleEndian o.start) ++ o.gap ++ [stx] := by
  rw [Opening.start, Word.toLittleEndian_ofLittleEndian]
  simp [Opening.bytes]

/-- A stream that is accepted is an opening, an image that fits, ETX and what is left. -/
private theorem taken_of_accepted {polls rest : List (Option UInt8)} {image : Image}
    {log : List (Exchange Target)}
    (accepted : Ends Target.polled.recorded (receive window) (polls, []) (.ok (.ok image) (rest, log))) :
    ∃ (o : Opening) (data : List UInt8) (taken : List (Option UInt8)), polls = taken ++ rest ∧
      taken.reduceOption = o.bytes ++ (data ++ [etx]) ∧ AllFit window o.start 0 data ∧
      image = ⟨o.start, UInt32.ofNat data.length⟩ ∧ Target.stores log = placed o.start data := by
  rcases takeAll_cases window polls.reduceOption with
    ⟨stored, waiting, -⟩ | ⟨o, data, last, left, bytes_eq, fits, stops, finishing⟩
  · obtain ⟨course, -, ends⟩ := receive_exhausts waiting
    cases accepted.unique ends
  · obtain ⟨course, before, last', rest', rfl, left_eq, loads, ends⟩ := receive_finishes finishing
    obtain ⟨returned, state⟩ := EStateM.Result.ok.inj (accepted.unique ends)
    obtain ⟨rfl, rfl⟩ := Prod.mk.inj state
    obtain ⟨rfl, image_eq⟩ := ((account_of_stops fits stops).ok_iff image).mp returned.symm
    have heard : (before ++ [some last'] ++ rest).reduceOption = o.bytes ++ (data ++ [etx]) ++ left := by
      simpa using bytes_eq
    exact ⟨o, data, before ++ [some last'], by simp, reduceOption_taken heard left_eq, fits, image_eq,
      loads.stored⟩

/-- A frame whose image fits is taken whole, with any silence, and its image stored. -/
private theorem framed_again {polls : List (Option UInt8)} {tail : List UInt8}
    (fits : AllFit window start 0 data) (heard : polls.reduceOption = rawFrame start data ++ tail) :
    ∃ taken rest log, polls = taken ++ rest ∧ taken.reduceOption = rawFrame start data ∧
      Ends Target.polled.recorded (receive window) (polls, [])
        (.ok (.ok ⟨start, UInt32.ofNat data.length⟩) (rest, log)) ∧
      Target.stores log = placed start data := by
  have finishing := takeAll_rawFrame (by simp : soh ∉ []) fits tail
  rw [List.nil_append, ← heard] at finishing
  obtain ⟨course, before, last, rest, rfl, left_eq, loads, ends⟩ := receive_finishes finishing
  refine ⟨before ++ [some last], rest, _, by simp, ?_, ends, loads.stored⟩
  exact reduceOption_taken (by simpa using heard) left_eq

end Parts

/-- An image that has been accepted frames again: the host does not refuse it, and its frame is what the
device has taken, less the noise, and has the same effect there. -/
theorem accepted_reframed {window : Window} {polls rest : List (Option UInt8)} {image : Image}
    {log : List (Exchange Target)}
    (accepted : Ends Target.polled.recorded (receive window) (polls, []) (.ok (.ok image) (rest, log))) :
    ∃ framed, frame image.start (Target.payload log) = .ok framed ∧
      Reframes window image polls rest log framed := by
  obtain ⟨o, data, taken, split, taken_eq, fits, rfl, stored⟩ := taken_of_accepted accepted
  have payload_eq : Target.payload log = data := by
    rw [Target.payload, stored, map_snd_placed]
  obtain ⟨no_etx, room, -⟩ := allFit_image.mp fits
  refine ⟨rawFrame o.start data, frame_eq_ok_iff.mpr ⟨?_, ?_, ?_⟩, ?_, ?_⟩
  · rwa [payload_eq]
  · rwa [payload_eq]
  · rw [payload_eq]
  · intro polls' tail heard
    rw [stored]
    exact framed_again fits heard
  · refine ⟨taken, o.noise, o.gap, split, o.noise_quiet, o.gap_quiet, ?_, ?_⟩
    · rw [taken_eq, opening_bytes, payload_eq]
      simp
    · rw [payload_eq]
      simp [rawFrame, header]

/-- An image that ends at the last address there is, with silence before every byte and noise wherever
noise may be. -/
theorem accepted_reframed_at_top :
    let window : Window := ⟨0xFFFFFFF0, 0xFFFFFFFF⟩
    let received := [0x02, 0x03, 0x01, 0xFE, 0xFF, 0xFF, 0xFF, 0x01, 0x03, 0x02, 0x01, 0x02, 0x03, 0x07]
    let polls := received.flatMap fun byte => [none, some byte]
    ∃ rest log,
      Ends Target.polled.recorded (receive window) (polls, []) (.ok (.ok ⟨0xFFFFFFFE, 2⟩) (rest, log)) ∧
      Target.payload log = [0x01, 0x02] ∧
      ∃ framed, frame 0xFFFFFFFE (Target.payload log) = .ok framed ∧
        Reframes window ⟨0xFFFFFFFE, 2⟩ polls rest log framed := by
  intro window received polls
  have finishing : Phase.idle.takeAll window polls.reduceOption =
      ([(0xFFFFFFFE, 0x01), (0xFFFFFFFF, 0x02)], some (.ok ⟨0xFFFFFFFE, 2⟩, [0x07])) := rfl
  obtain ⟨course, _, _, rest, -, -, loads, accepted⟩ := receive_finishes finishing
  exact ⟨rest, _, accepted, congrArg (List.map Prod.snd) loads.stored, accepted_reframed accepted⟩

end BoardSupport.Boot

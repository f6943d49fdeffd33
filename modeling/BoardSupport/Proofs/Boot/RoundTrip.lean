import BoardSupport.Loader.Frame
import BoardSupport.Proofs.Boot.Grammar
import BoardSupport.Proofs.Word.Bytes

/-! What the host frames, the device receives. -/
namespace BoardSupport.Boot

open Program Loader

/-- The check of an image finds its first ETX. -/
theorem checkPayload_etx {before : List UInt8} (no_etx : etx ∉ before) (after : List UInt8) :
    checkPayload (before ++ etx :: after) = .error (.etxInPayload before.length) := by
  have here : (before ++ etx :: after).findIdx? (· == etx) = some before.length := by
    rw [List.findIdx?_eq_some_iff_getElem]
    refine ⟨by simp, by simp, ?_⟩
    intro i earlier
    rw [List.getElem_append_left earlier]
    have other : before[i] ≠ etx := fun h => no_etx (h ▸ List.getElem_mem earlier)
    simpa using other
  rw [checkPayload, here]

theorem checkPayload_clean {payload : List UInt8} (no_etx : etx ∉ payload) :
    checkPayload payload = .ok () := by
  have none_found : payload.findIdx? (· == etx) = none := by
    rw [List.findIdx?_eq_none_iff]
    intro byte mem
    have other : byte ≠ etx := fun h => no_etx (h ▸ mem)
    simpa using other
  rw [checkPayload, none_found]

/-- A frame is made only of an image that fits the protocol and the memory. -/
theorem frame_eq_ok_iff {address : UInt32} {payload bytes : List UInt8} :
    frame address payload = .ok bytes ↔ etx ∉ payload ∧ address.toNat + payload.length ≤ UInt32.size ∧
      bytes = rawFrame address payload := by
  by_cases held : etx ∈ payload
  · obtain ⟨before, after, rfl, no_etx⟩ := List.eq_append_cons_of_mem held
    rw [frame, checkPayload_etx no_etx]
    simp
  · rw [frame, checkPayload_clean held]
    simp only [held, not_false_eq_true, true_and]
    split
    next past => simp; omega
    next room => simp [eq_comm]; omega

/-- The header of a frame as an opening, after noise. -/
def headerAfter (noise : List UInt8) (quiet : soh ∉ noise) (address : UInt32) : Opening where
  noise := noise
  b0 := address.toUInt8
  b1 := (address >>> 8).toUInt8
  b2 := (address >>> 16).toUInt8
  b3 := (address >>> 24).toUInt8
  gap := []
  noise_quiet := quiet
  gap_quiet := by simp

theorem headerAfter_bytes (noise : List UInt8) (quiet : soh ∉ noise) (address : UInt32) :
    (headerAfter noise quiet address).bytes = noise ++ header address := rfl

theorem headerAfter_start (noise : List UInt8) (quiet : soh ∉ noise) (address : UInt32) :
    (headerAfter noise quiet address).start = address := Word.ofLittleEndian_bytes address

/-- A frame whose image fits is taken whole, and its image stored. -/
theorem takeAll_rawFrame {window : Window} {address : UInt32} {payload noise : List UInt8}
    (quiet : soh ∉ noise) (fits : AllFit window address 0 payload) (tail : List UInt8) :
    Phase.idle.takeAll window (noise ++ rawFrame address payload ++ tail) =
      (placed address payload, some (.ok ⟨address, UInt32.ofNat payload.length⟩, tail)) := by
  have room := (allFit_image.mp fits).2.1
  have stops : ¬ Fits window address (0 + payload.length) etx := fun h => h.1 rfl
  have split : noise ++ rawFrame address payload ++ tail =
      (headerAfter noise quiet address).bytes ++ (payload ++ etx :: tail) := by
    simp [rawFrame, headerAfter_bytes]
  rw [split, takeAll_opening, headerAfter_start, takeAll_image fits,
    takeAll_stops stops (by omega)]
  simp [verdict, placed]

/-- A framed image arrives as it was sent, after any noise and with any silence on the line: XON is
sent and leaves the transmitter first, the image is stored in order and nothing else, and what
follows the frame stays unread. -/
theorem receive_frame (address : UInt32) (payload framed noise tail : List UInt8) (window : Window)
    (polls : List (Option UInt8)) (sent : frame address payload = .ok framed) (quiet : soh ∉ noise)
    (inside : ∀ i < payload.length, addressAt address i ∈ window)
    (heard : polls.reduceOption = noise ++ framed ++ tail) :
    ∃ course rest,
      Ends Target.polled.recorded (receive window) (polls, [])
        (.ok (.ok ⟨address, UInt32.ofNat payload.length⟩)
          (rest, ⟨.link (.send xon), ()⟩ :: ⟨.link .flush, ()⟩ :: course)) ∧
      (∀ x ∈ course, x.request = .link .poll ∨ ∃ target byte, x.request = .store target byte) ∧
      Target.stores course = payload.mapIdx (fun i byte => (addressAt address i, byte)) ∧
      rest.reduceOption = tail := by
  obtain ⟨no_etx, room, rfl⟩ := frame_eq_ok_iff.mp sent
  have fits : AllFit window address 0 payload := allFit_image.mpr ⟨no_etx, room, inside⟩
  have taken := takeAll_rawFrame quiet fits tail
  rw [← heard] at taken
  obtain ⟨course, before, last, rest, -, left, loads, ends⟩ := receive_finishes taken
  refine ⟨course, rest, ends, loads.only, ?_, left⟩
  rw [loads.stored]
  simp only [placed, placedFrom, Nat.zero_add]

/-- An image that holds SOH and STX and ends at the last address there is, after noise that holds STX
and XON and with silence in between. -/
theorem receive_frame_at_top :
    let window : Window := ⟨0xFFFFFFF0, 0xFFFFFFFF⟩
    let framed := [0x01, 0xFE, 0xFF, 0xFF, 0xFF, 0x02, 0x01, 0x02, 0x03]
    let polls := [0x02, 0x11].map some ++ none :: framed.map some ++ [none, some 0x01]
    frame 0xFFFFFFFE [0x01, 0x02] = .ok framed ∧ soh ∉ [0x02, 0x11] ∧
    (∀ i < 2, addressAt 0xFFFFFFFE i ∈ window) ∧
    polls.reduceOption = [0x02, 0x11] ++ framed ++ [0x01] ∧
    ∃ course rest,
      Ends Target.polled.recorded (receive window) (polls, [])
        (.ok (.ok ⟨0xFFFFFFFE, 2⟩) (rest, ⟨.link (.send xon), ()⟩ :: ⟨.link .flush, ()⟩ :: course)) ∧
      (∀ x ∈ course, x.request = .link .poll ∨ ∃ target byte, x.request = .store target byte) ∧
      Target.stores course = [(0xFFFFFFFE, 0x01), (0xFFFFFFFF, 0x02)] ∧ rest.reduceOption = [0x01] :=
  ⟨by decide, by decide, by decide, by decide,
    receive_frame 0xFFFFFFFE [0x01, 0x02] [0x01, 0xFE, 0xFF, 0xFF, 0xFF, 0x02, 0x01, 0x02, 0x03]
      [0x02, 0x11] [0x01] _ _ (by decide) (by decide) (by decide) (by decide)⟩

end BoardSupport.Boot

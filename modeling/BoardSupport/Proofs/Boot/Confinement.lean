import BoardSupport.Proofs.Boot.Grammar

/-! A receiver never stores outside its window, whatever arrives. -/
namespace BoardSupport.Boot

open Program

/-- What a transfer has come to whose image began at `start` and held `data` when the byte `last`
ended it. -/
structure Account (window : Window) (start : UInt32) (data : List UInt8) (last : UInt8)
    (stored : List (UInt32 × UInt8)) (result : Except BootError Image) : Prop where
  stored_eq : stored = placed start data
  /-- No address has wrapped. -/
  room : start.toNat + data.length ≤ UInt32.size
  inside : ∀ x ∈ stored, x.1 ∈ window
  no_etx : etx ∉ data
  ok_iff : ∀ image, result = .ok image ↔ last = etx ∧ image = ⟨start, UInt32.ofNat data.length⟩
  /-- The image stops where the next byte would have gone, around the top of memory. -/
  stop : ∀ image, result = .ok image → image.stop = addressAt start data.length
  outOfBounds_iff : ∀ address, result = .error (.outOfBounds address) ↔ last ≠ etx ∧
    start.toNat + data.length < UInt32.size ∧ address.toNat = start.toNat + data.length ∧ address ∉ window
  overflow_iff : result = .error .addressOverflow ↔ last ≠ etx ∧ start.toNat + data.length = UInt32.size
  no_other : ∀ offset, result ≠ .error (.etxInPayload offset)

section Verdict

variable {window : Window} {start : UInt32} {data : List UInt8} {last : UInt8}

private theorem mem_placed {x : UInt32 × UInt8} (h : x ∈ placed start data) :
    ∃ i < data.length, x.1 = addressAt start i := by
  obtain ⟨i, hi, rfl⟩ := List.mem_mapIdx.mp h
  exact ⟨i, hi, by rw [Nat.zero_add]⟩

private theorem stop_eq (n : Nat) :
    (⟨start, UInt32.ofNat n⟩ : Image).stop = addressAt start n := by
  simp [Image.stop, addressAt, UInt32.ofNat_add]

private theorem outOfBounds_iff_of_stops (stops : ¬ Fits window start data.length last)
    (room : start.toNat + data.length ≤ UInt32.size) (address : UInt32) :
    verdict start data.length last = .error (.outOfBounds address) ↔ last ≠ etx ∧
      start.toNat + data.length < UInt32.size ∧ address.toNat = start.toNat + data.length ∧
        address ∉ window := by
  unfold verdict
  by_cases ended : last = etx
  · simp [ended]
  by_cases full : start.toNat + data.length = UInt32.size
  · simp [ended, full]
  have below : start.toNat + data.length < UInt32.size := by omega
  have value : (addressAt start data.length).toNat = start.toNat + data.length :=
    UInt32.toNat_ofNat_of_lt below
  rw [if_neg ended, if_neg full]
  constructor
  · rintro ⟨⟩
    exact ⟨ended, below, value, fun inside => stops ⟨ended, below, inside⟩⟩
  · rintro ⟨-, -, same, -⟩
    rw [UInt32.toNat_inj.mp (same.trans value.symm)]

private theorem overflow_iff_of_stops :
    verdict start data.length last = .error .addressOverflow ↔
      last ≠ etx ∧ start.toNat + data.length = UInt32.size := by
  unfold verdict
  by_cases ended : last = etx
  · simp [ended]
  by_cases full : start.toNat + data.length = UInt32.size
  · simp [ended, full]
  · simp [ended, full]

private theorem ok_iff_of_stops (image : Image) : verdict start data.length last = .ok image ↔
    last = etx ∧ image = ⟨start, UInt32.ofNat data.length⟩ := by
  unfold verdict
  by_cases ended : last = etx
  · simp [ended, eq_comm]
  · simp only [ended, if_false, false_and, iff_false]
    split <;> rintro ⟨⟩

private theorem verdict_ne (offset : Nat) :
    verdict start data.length last ≠ .error (.etxInPayload offset) := by
  unfold verdict
  split
  · rintro ⟨⟩
  · split <;> rintro ⟨⟩

theorem account_of_stops (fits : AllFit window start 0 data)
    (stops : ¬ Fits window start data.length last) :
    Account window start data last (placed start data) (verdict start data.length last) := by
  obtain ⟨no_etx, room, inside⟩ := allFit_image.mp fits
  refine ⟨rfl, room, ?_, no_etx, ok_iff_of_stops, ?_, outOfBounds_iff_of_stops stops room,
    overflow_iff_of_stops, verdict_ne⟩
  · intro x hx
    obtain ⟨i, hi, address_eq⟩ := mem_placed hx
    exact address_eq ▸ inside i hi
  · intro image returned
    obtain ⟨-, rfl⟩ := (ok_iff_of_stops image).mp returned
    exact stop_eq data.length

end Verdict

/-- On every stream the call either returns at the first byte after an opening that the image cannot
go on with, having stored exactly the bytes before it, or waits for more, and then every byte of the
image has been stored and fits. What follows the byte that makes it return stays unread. -/
theorem receive_confined (window : Window) (polls : List (Option UInt8)) :
    (∃ (o : Opening) (data : List UInt8) (last : UInt8) (before rest : List (Option UInt8))
      (log : List (Exchange Target)) (result : Except BootError Image),
      polls = before ++ some last :: rest ∧ before.reduceOption = o.bytes ++ data ∧
      Ends Target.polled.recorded (receive window) (polls, []) (.ok result (rest, log)) ∧
      Account window o.start data last (Target.stores log) result) ∨
    ∃ log, Ends Target.polled.recorded (receive window) (polls, [])
        (.error (.stopped .inputExhausted) ([], log)) ∧
      Pending window polls.reduceOption (Target.stores log) := by
  have greeted (course : List (Exchange Target)) :
      Target.stores (Target.greeting ++ course) = Target.stores course := rfl
  rcases takeAll_cases window polls.reduceOption with
    ⟨stored, taken, pending⟩ | ⟨o, data, last, left, bytes_eq, fits, stops, taken⟩
  · obtain ⟨course, loads, ends⟩ := receive_exhausts taken
    exact .inr ⟨_, ends, by rwa [greeted, loads.stored]⟩
  · obtain ⟨course, before, last', rest, rfl, rfl, loads, ends⟩ := receive_finishes taken
    rw [List.reduceOption_append, List.reduceOption_cons_of_some, ← List.append_assoc] at bytes_eq
    -- What is left has the same length on both sides, so the streams part at the same place.
    obtain ⟨front, tail⟩ := List.append_inj' bytes_eq rfl
    cases tail
    refine .inl ⟨o, data, last, before, rest, _, _, rfl, front, ends, ?_⟩
    rw [greeted, loads.stored]
    exact account_of_stops fits stops

end BoardSupport.Boot

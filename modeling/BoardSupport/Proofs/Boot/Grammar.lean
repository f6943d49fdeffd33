import BoardSupport.Proofs.Boot.Course

/-! The grammar of what a receiver takes. Before the image stands an opening, `Opening`; an image
goes on as long as its bytes fit, `Fits`; and the first that does not brings the verdict. -/
namespace BoardSupport.Boot

/-- What comes before an image: noise without SOH, SOH, the address, noise without STX, STX. -/
structure Opening where
  noise : List UInt8
  b0 : UInt8
  b1 : UInt8
  b2 : UInt8
  b3 : UInt8
  gap : List UInt8
  noise_quiet : soh ∉ noise
  gap_quiet : stx ∉ gap

namespace Opening

def bytes (o : Opening) : List UInt8 :=
  o.noise ++ soh :: o.b0 :: o.b1 :: o.b2 :: o.b3 :: (o.gap ++ [stx])

/-- The load address. -/
def start (o : Opening) : UInt32 := Word.ofLittleEndian o.b0 o.b1 o.b2 o.b3

end Opening

/-- The address `n` bytes after `start`, around the top of memory. -/
def addressAt (start : UInt32) (n : Nat) : UInt32 := UInt32.ofNat (start.toNat + n)

/-- Bytes at consecutive addresses, from the one `n` bytes after `start`. -/
def placedFrom (start : UInt32) (n : Nat) (data : List UInt8) : List (UInt32 × UInt8) :=
  data.mapIdx fun i byte => (addressAt start (n + i), byte)

/-- Bytes at consecutive addresses from `start`. -/
def placed (start : UInt32) (data : List UInt8) : List (UInt32 × UInt8) := placedFrom start 0 data

/-- `byte` can be byte `n` of an image at `start`: it is not ETX, and there is room for it in
memory and in the window. -/
def Fits (window : Window) (start : UInt32) (n : Nat) (byte : UInt8) : Prop :=
  byte ≠ etx ∧ start.toNat + n < UInt32.size ∧ addressAt start n ∈ window

/-- Bytes from byte `n` of an image on all fit. -/
def AllFit (window : Window) (start : UInt32) (n : Nat) (data : List UInt8) : Prop :=
  ∀ i (h : i < data.length), Fits window start (n + i) data[i]

/-- How a transfer ends whose byte `n` does not fit. -/
def verdict (start : UInt32) (n : Nat) (byte : UInt8) : Except BootError Image :=
  if byte = etx then .ok ⟨start, UInt32.ofNat n⟩
  else if start.toNat + n = UInt32.size then .error .addressOverflow
  else .error (.outOfBounds (addressAt start n))

/-- The receiver's phase after `n` bytes of an image at `start`. -/
def Phase.loaded (start : UInt32) (n : Nat) : Phase :=
  .loading start (if start.toNat + n < UInt32.size then some (addressAt start n) else none) (UInt32.ofNat n)

section Lists

variable {window : Window} {start : UInt32} {n : Nat} {byte : UInt8} {data : List UInt8}

theorem placedFrom_cons : placedFrom start n (byte :: data) =
    (addressAt start n, byte) :: placedFrom start (n + 1) data := by
  simp only [placedFrom, List.mapIdx_cons, Nat.add_zero, Nat.add_assoc, Nat.add_comm 1]

theorem allFit_nil : AllFit window start n [] := fun _ h => by simp at h

theorem allFit_cons : AllFit window start n (byte :: data) ↔
    Fits window start n byte ∧ AllFit window start (n + 1) data := by
  constructor
  · intro h
    refine ⟨h 0 (by simp), fun i hi => ?_⟩
    have := h (i + 1) (by simpa using hi)
    rwa [Nat.add_right_comm n 1 i]
  · rintro ⟨first, rest⟩ i hi
    cases i with
    | zero => exact first
    | succ i =>
      have := rest i (by simpa using hi)
      rwa [Nat.add_right_comm] at this

theorem allFit_image : AllFit window start 0 data ↔
    etx ∉ data ∧ start.toNat + data.length ≤ UInt32.size ∧ ∀ i < data.length, addressAt start i ∈ window := by
  simp only [AllFit, Fits, Nat.zero_add]
  constructor
  · intro h
    refine ⟨fun found => ?_, ?_, fun i hi => (h i hi).2.2⟩
    · obtain ⟨i, hi, here⟩ := List.mem_iff_getElem.mp found
      exact (h i hi).1 here
    · by_contra past
      have := (h (data.length - 1) (by have := start.toNat_lt_size; omega)).2.1
      omega
  · rintro ⟨noEtx, room, inside⟩ i hi
    exact ⟨fun here => noEtx (here ▸ List.getElem_mem hi), by omega, inside i hi⟩

end Lists

section TakeAll

variable {window : Window} {start : UInt32} {n : Nat} {byte : UInt8}

theorem takeAll_noise {noise : List UInt8} (quiet : soh ∉ noise) (more : List UInt8) :
    Phase.idle.takeAll window (noise ++ more) = Phase.idle.takeAll window more := by
  induction noise with
  | nil => rfl
  | cons byte noise ih =>
    have other : byte ≠ soh := fun h => quiet (by simp [h])
    rw [List.cons_append, Phase.takeAll]
    simp only [Phase.feed, if_neg other]
    exact ih fun h => quiet (by simp [h])

theorem takeAll_soh (more : List UInt8) :
    Phase.idle.takeAll window (soh :: more) = (Phase.address []).takeAll window more := rfl

theorem takeAll_address (b0 b1 b2 b3 : UInt8) (more : List UInt8) :
    (Phase.address []).takeAll window (b0 :: b1 :: b2 :: b3 :: more) =
      (Phase.addressed (Word.ofLittleEndian b0 b1 b2 b3)).takeAll window more := rfl

theorem takeAll_gap {gap : List UInt8} (quiet : stx ∉ gap) (more : List UInt8) :
    (Phase.addressed start).takeAll window (gap ++ more) =
      (Phase.addressed start).takeAll window more := by
  induction gap with
  | nil => rfl
  | cons byte gap ih =>
    have other : byte ≠ stx := fun h => quiet (by simp [h])
    rw [List.cons_append, Phase.takeAll]
    simp only [Phase.feed, if_neg other]
    exact ih fun h => quiet (by simp [h])

theorem takeAll_stx (more : List UInt8) :
    (Phase.addressed start).takeAll window (stx :: more) = (Phase.loaded start 0).takeAll window more := by
  have room : start.toNat + 0 < UInt32.size := start.toNat_lt
  rw [Phase.takeAll, Phase.loaded, if_pos room]
  simp only [Phase.feed, addressAt, Nat.add_zero, UInt32.ofNat_toNat]
  rfl

/-- After an opening the image is next. -/
theorem takeAll_opening (o : Opening) (more : List UInt8) :
    Phase.idle.takeAll window (o.bytes ++ more) = (Phase.loaded o.start 0).takeAll window more := by
  rw [Opening.bytes, List.append_assoc, takeAll_noise o.noise_quiet]
  simp only [List.cons_append, List.append_assoc, List.nil_append]
  rw [takeAll_soh, takeAll_address, takeAll_gap o.gap_quiet, takeAll_stx]
  rfl

private theorem feed_fits (fits : Fits window start n byte) :
    (Phase.loaded start n).feed window byte =
      .keep (addressAt start n) (Phase.loaded start (n + 1)) := by
  obtain ⟨other, room, inside⟩ := fits
  have value : (addressAt start n).toNat = start.toNat + n := UInt32.toNat_ofNat_of_lt room
  have next : addressAfter (addressAt start n) =
      if start.toNat + (n + 1) < UInt32.size then some (addressAt start (n + 1)) else none := by
    unfold addressAfter
    rw [value]
    split
    next h => rw [if_pos (by omega)]; simp [addressAt, ← Nat.add_assoc, UInt32.ofNat_add]
    next h => rw [if_neg (by omega)]
  have count : UInt32.ofNat n + 1 = UInt32.ofNat (n + 1) := by simp [UInt32.ofNat_add]
  simp only [Phase.loaded, Phase.feed, if_neg other, if_pos room, if_pos inside, next, count]

private theorem feed_stops (stops : ¬ Fits window start n byte) (room : start.toNat + n ≤ UInt32.size) :
    (Phase.loaded start n).feed window byte = .finish (verdict start n byte) := by
  unfold Phase.loaded Phase.feed verdict
  by_cases last : byte = etx
  · simp only [if_pos last]
  by_cases full : start.toNat + n = UInt32.size
  · simp only [if_neg last, full, Nat.lt_irrefl, if_false, if_true]
  have below : start.toNat + n < UInt32.size := by omega
  have outside : ¬ addressAt start n ∈ window := fun h => stops ⟨last, below, h⟩
  simp only [if_neg last, if_neg full, if_pos below, if_neg outside]

/-- Bytes that fit are stored, one address after another. -/
theorem takeAll_image {data : List UInt8} (fits : AllFit window start n data) (more : List UInt8) :
    (Phase.loaded start n).takeAll window (data ++ more) =
      (placedFrom start n data ++ ((Phase.loaded start (n + data.length)).takeAll window more).1,
        ((Phase.loaded start (n + data.length)).takeAll window more).2) := by
  induction data generalizing n with
  | nil => rfl
  | cons byte data ih =>
    obtain ⟨first, rest⟩ := allFit_cons.mp fits
    rw [List.cons_append, Phase.takeAll, feed_fits first]
    simp only [ih rest, placedFrom_cons, List.length_cons, List.cons_append, Nat.add_assoc,
      Nat.add_comm 1]

/-- The first byte that does not fit is the last one taken. -/
theorem takeAll_stops (stops : ¬ Fits window start n byte) (room : start.toNat + n ≤ UInt32.size)
    (left : List UInt8) :
    (Phase.loaded start n).takeAll window (byte :: left) = ([], some (verdict start n byte, left)) := by
  rw [Phase.takeAll, feed_stops stops room]

/-- Either all bytes of a list fit, or there is a first one that does not. -/
theorem allFit_or_stops (window : Window) (start : UInt32) (n : Nat) (bytes : List UInt8) :
    AllFit window start n bytes ∨ ∃ data byte left, bytes = data ++ byte :: left ∧
      AllFit window start n data ∧ ¬ Fits window start (n + data.length) byte := by
  induction bytes generalizing n with
  | nil => exact .inl allFit_nil
  | cons byte bytes ih =>
    by_cases first : Fits window start n byte
    · rcases ih (n + 1) with all | ⟨data, last, left, rfl, fits, stops⟩
      · exact .inl (allFit_cons.mpr ⟨first, all⟩)
      · refine .inr ⟨byte :: data, last, left, rfl, allFit_cons.mpr ⟨first, fits⟩, ?_⟩
        rwa [List.length_cons, ← Nat.add_assoc, Nat.add_right_comm]
    · exact .inr ⟨[], byte, bytes, rfl, allFit_nil, first⟩

/-- A stream that has not ended a transfer, and what it has stored: it still lacks SOH, bytes of the
address, STX or the end of an image whose bytes all fit. -/
inductive Pending (window : Window) : List UInt8 → List (UInt32 × UInt8) → Prop
  | noise {noise : List UInt8} (quiet : soh ∉ noise) : Pending window noise []
  | address {noise received : List UInt8} (quiet : soh ∉ noise) (short : received.length < 4) :
      Pending window (noise ++ soh :: received) []
  | gap {noise gap : List UInt8} (b0 b1 b2 b3 : UInt8) (quiet : soh ∉ noise) (still : stx ∉ gap) :
      Pending window (noise ++ soh :: b0 :: b1 :: b2 :: b3 :: gap) []
  | image (o : Opening) {data : List UInt8} (fits : AllFit window o.start 0 data) :
      Pending window (o.bytes ++ data) (placed o.start data)

private theorem takeAll_short {received : List UInt8} (short : received.length < 4) :
    (Phase.address []).takeAll window received = ([], none) := by
  match received, short with
  | [], _ | [_], _ | [_, _], _ | [_, _, _], _ => rfl

/-- An image after its opening either ends or is pending. -/
private theorem takeAll_image_cases (window : Window) (o : Opening) (bytes : List UInt8) :
    (∃ stored, Phase.idle.takeAll window (o.bytes ++ bytes) = (stored, none) ∧
      Pending window (o.bytes ++ bytes) stored) ∨
    ∃ data last left, bytes = data ++ last :: left ∧ AllFit window o.start 0 data ∧
      ¬ Fits window o.start data.length last ∧ Phase.idle.takeAll window (o.bytes ++ bytes) =
        (placed o.start data, some (verdict o.start data.length last, left)) := by
  rw [takeAll_opening]
  rcases allFit_or_stops window o.start 0 bytes with fits | ⟨data, last, left, rfl, fits, stops⟩
  · refine .inl ⟨_, ?_, .image o fits⟩
    have h := takeAll_image fits []
    simpa only [List.append_nil, Phase.takeAll, placed] using h
  · have room := (allFit_image.mp fits).2.1
    rw [Nat.zero_add] at stops
    refine .inr ⟨data, last, left, rfl, fits, stops, ?_⟩
    rw [takeAll_image fits, Nat.zero_add, takeAll_stops stops room]
    simp only [List.append_nil, placed]

/-- Every stream is pending, or ends a transfer at the first byte after an opening that does not
fit. -/
theorem takeAll_cases (window : Window) (bytes : List UInt8) :
    (∃ stored, Phase.idle.takeAll window bytes = (stored, none) ∧ Pending window bytes stored) ∨
    ∃ (o : Opening) (data : List UInt8) (last : UInt8) (left : List UInt8),
      bytes = o.bytes ++ (data ++ last :: left) ∧ AllFit window o.start 0 data ∧
      ¬ Fits window o.start data.length last ∧ Phase.idle.takeAll window bytes =
        (placed o.start data, some (verdict o.start data.length last, left)) := by
  by_cases found : soh ∈ bytes
  case neg =>
    have h := @takeAll_noise window _ found []
    rw [List.append_nil] at h
    exact .inl ⟨[], h, .noise found⟩
  obtain ⟨noise, received, rfl, quiet⟩ := List.eq_append_cons_of_mem found
  match received with
  | [] | [_] | [_, _] | [_, _, _] =>
    refine .inl ⟨[], ?_, .address quiet (by simp)⟩
    rw [takeAll_noise quiet, takeAll_soh, takeAll_short (by simp)]
  | b0 :: b1 :: b2 :: b3 :: bytes =>
    by_cases begun : stx ∈ bytes
    · obtain ⟨gap, bytes, rfl, still⟩ := List.eq_append_cons_of_mem begun
      let o : Opening := ⟨noise, b0, b1, b2, b3, gap, quiet, still⟩
      have same : noise ++ soh :: b0 :: b1 :: b2 :: b3 :: (gap ++ stx :: bytes) = o.bytes ++ bytes := by
        simp [o, Opening.bytes]
      rw [same]
      rcases takeAll_image_cases window o bytes with pending | ⟨data, last, left, rfl, ending⟩
      · exact .inl pending
      · exact .inr ⟨o, data, last, left, rfl, ending⟩
    · refine .inl ⟨[], ?_, .gap b0 b1 b2 b3 quiet begun⟩
      have h := @takeAll_gap window (Word.ofLittleEndian b0 b1 b2 b3) _ begun []
      rw [List.append_nil] at h
      rw [takeAll_noise quiet, takeAll_soh, takeAll_address, h]
      rfl

end TakeAll

end BoardSupport.Boot

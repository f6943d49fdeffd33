import BoardSupport.Proofs.Loader.Sending

/-! Delivering a transfer, from opening the port to listening to what the device says afterwards. -/
namespace BoardSupport.Loader

open Program

section Talk

variable {bytes : List UInt8} {log : List (Exchange Host)} {outcome : Option (Except Failure Unit)}

/-- After XON the pieces of a transfer go out until one is refused, and the rest of the log is quiet
again. -/
structure Talks (bytes : List UInt8) (outcome : Option (Except Failure Unit))
    (first : List (Exchange Host)) (taken rest : List (List UInt8)) (last tail : List (Exchange Host)) :
    Prop where
  quiet : Quiet first
  heard : HeardXon first
  pieces : chunks chunkSize bytes = taken ++ rest
  close : Close rest last outcome
  after : Quiet tail

def Talk (bytes : List UInt8) (log : List (Exchange Host))
    (outcome : Option (Except Failure Unit)) : Prop :=
  ∃ first taken rest last tail, log = first ++ (taken.map wrote ++ (last ++ tail)) ∧
    Talks bytes outcome first taken rest last tail

theorem Talks.written_eq {first last tail : List (Exchange Host)} {taken rest : List (List UInt8)}
    (h : Talks bytes outcome first taken rest last tail) :
    written (first ++ (taken.map wrote ++ (last ++ tail))) = taken := by
  have nothing : written last = [] := by
    cases h.close <;> rfl
  simp only [written_append, written_of_quiet h.quiet, written_of_quiet h.after, written_wrote,
    nothing, List.nil_append, List.append_nil]

theorem flatten_pieces {taken : List (List UInt8)} (h : chunks chunkSize bytes = taken) :
    taken.flatten = bytes := by
  rw [← h, flatten_chunks (by decide)]

/-- What ends well has been heard, written and flushed. -/
theorem Talk.sent (h : Talk bytes log (some (.ok ()))) :
    HeardXon log ∧ (written log).flatten = bytes ∧ ⟨.flushPort, .ok ()⟩ ∈ log := by
  obtain ⟨first, taken, rest, last, tail, rfl, talks⟩ := h
  have pieces := talks.pieces
  rw [talks.written_eq]
  generalize same : some (Except.ok () : Except Failure Unit) = outcome at talks
  cases talks.close with
  | pending => cases same
  | refused => cases same
  | flushed reply =>
    obtain rfl : reply = .ok () := by
      cases reply with
      | ok => rfl
      | error e => cases same
    exact ⟨heardXon_append.mpr (.inl talks.heard), flatten_pieces (by rw [pieces, List.append_nil]), by simp⟩

end Talk

section Echo

variable {log : List (Exchange Host)}

end Echo

section Delivery

variable {port : String} {baud address : UInt32} {timeout size : Nat} {thenEcho : Bool}
  {bytes : List UInt8} {log : List (Exchange Host)}

def report (address : UInt32) (size : Nat) (thenEcho : Bool) : Task Unit := do
  Task.always (Host.say ("note: " ++ toString size ++ " bytes sent to " ++
    Text.hexMarked address.toNat))
  if thenEcho then echo

end Delivery

end BoardSupport.Loader

import BoardSupport.Proofs.Loader.Delivery

/-! What an upload asks of the port, on any host and however far it gets. -/
namespace BoardSupport.Loader

open Program

def Host.Request.OnPort : Host.Request → Prop
  | openPort .. | readPort _ | writePort _ | flushPort | portTimeout | setPortTimeout _ => True
  | _ => False

/-- What an upload of this transfer keeps to, at every moment. -/
structure Orderly (command : Task Unit) (transfer : Except Failure (List UInt8))
    (log : List (Exchange Host)) : Prop where
  /-- Without an image fit to send the command fails, and the port is left alone. -/
  unfit : ∀ f, transfer = .error f →
    Follows command.run log (.error f) ∧ ∀ x ∈ log, ¬ x.request.OnPort
  heard : ∀ before piece reply after, log = before ++ ⟨.writePort piece, reply⟩ :: after →
    HeardXon before
  unheard : ∀ f, f.OfWaiting → Follows command.run log (.error f) → tried log = []
  short : ∀ piece ∈ tried log, piece.length ≤ 64
  partly : ∀ bytes, transfer = .ok bytes → (written log).flatten <+: bytes
  /-- Once the port is flushed it has taken the whole transfer. -/
  flushed : ∀ bytes reply, transfer = .ok bytes → ⟨.flushPort, reply⟩ ∈ log →
    (written log).flatten = bytes
  whole : ∀ bytes outcome, transfer = .ok bytes → Follows command.run log outcome → HeardXon log →
    tried log = written log → (written log).flatten = bytes
  /-- A command that ends well has heard XON, and the port has taken the whole transfer and let it out. -/
  sent : ∀ bytes, transfer = .ok bytes → Follows command.run log (.ok ()) →
    HeardXon log ∧ (written log).flatten = bytes ∧ ⟨.flushPort, .ok ()⟩ ∈ log
  /-- The command fails with the first piece that the port does not take, and asks for nothing more. -/
  failed : ∀ piece e, ⟨.writePort piece, .error e⟩ ∈ log →
    Follows command.run log (.error (.sending e))

section Orderliness

variable {bytes : List UInt8} {log : List (Exchange Host)}

end Orderliness

section Command

variable {port file : String} {baud address : UInt32} {timeout : Nat} {thenEcho : Bool}
  {format : Option Format} {log rest : List (Exchange Host)}
  {contents : Except IoError (List UInt8)}

end Command

end BoardSupport.Loader

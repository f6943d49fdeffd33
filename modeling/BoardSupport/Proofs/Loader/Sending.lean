import BoardSupport.Loader.Tool
import BoardSupport.Proofs.Loader.Waiting

/-! A transfer on its way through the port. It goes out in pieces, and stops at the first that the port
does not take. -/
namespace BoardSupport.Loader

open Program

/-- The pieces that the port was asked to take. -/
def tried (log : List (Exchange Host)) : List (List UInt8) :=
  log.filterMap fun
    | ⟨.writePort piece, _⟩ => some piece
    | _ => none

/-- The pieces that the port has taken whole. -/
def written (log : List (Exchange Host)) : List (List UInt8) :=
  log.filterMap fun
    | ⟨.writePort piece, .ok _⟩ => some piece
    | _ => none

/-- The request sends nothing to the port. -/
def Host.Request.Quiet : Host.Request → Prop
  | writePort _ | flushPort => False
  | _ => True

section Pieces

variable {α : Type} {n : Nat}

theorem flatten_chunks (pos : 0 < n) (items : List α) : (chunks n items).flatten = items := by
  fun_induction chunks n items with
  | case1 items none =>
    rcases none with rfl | rfl
    · rfl
    · omega
  | case2 items some ih => rw [List.flatten_cons, ih, List.take_append_drop]

end Pieces

section Sending

variable {pieces : List (List UInt8)} {log : List (Exchange Host)}

def wrote (piece : List UInt8) : Exchange Host := ⟨.writePort piece, .ok ()⟩

/-- How sending stands after the pieces that the port has taken, with these still to come. -/
inductive Close : List (List UInt8) → List (Exchange Host) → Option (Except Failure Unit) → Prop
  | pending (rest : List (List UInt8)) : Close rest [] none
  | refused (piece : List UInt8) (rest : List (List UInt8)) (e : IoError) :
      Close (piece :: rest) [⟨.writePort piece, .error e⟩] (some (.error (.sending e)))
  | flushed (reply : Except IoError Unit) :
      Close [] [⟨.flushPort, reply⟩] (some (reply.mapError .sending))

end Sending

section Logs

variable {first second log : List (Exchange Host)}

def Quiet (log : List (Exchange Host)) : Prop := ∀ x ∈ log, x.request.Quiet

theorem quiet_append (h : Quiet first) (h' : Quiet second) : Quiet (first ++ second) :=
  List.forall_mem_append.mpr ⟨h, h'⟩

theorem written_append : written (first ++ second) = written first ++ written second :=
  List.filterMap_append

theorem written_of_quiet (h : Quiet log) : written log = [] := by
  rw [written, List.filterMap_eq_nil_iff]
  rintro ⟨request, reply⟩ mem
  have quiet := h _ mem
  cases request <;> first | rfl | exact quiet.elim

theorem written_wrote (taken : List (List UInt8)) : written (taken.map wrote) = taken := by
  rw [written, List.filterMap_map]
  exact List.filterMap_some

end Logs

end BoardSupport.Loader

import BoardSupport.Firmware.Bootloader
import BoardSupport.Proofs.Firmware.Telling
import BoardSupport.Proofs.Program.Beginning
import BoardSupport.Proofs.Serial.Port

/-! What a bootloader does to the machine that it runs on: the rate of the port is set once, and then
bytes pass through the port and into memory. -/
namespace BoardSupport.Firmware

open Program Boot

namespace Machine

/-- What has passed on the bus. -/
def accesses (log : List (Exchange Machine)) : List (Exchange Bus) :=
  log.filterMap fun
    | ⟨.bus r, reply⟩ => some ⟨r, reply⟩
    | _ => none

/-- What was put into memory and where, in order. -/
def stores (log : List (Exchange Machine)) : List (UInt32 × UInt8) :=
  log.filterMap fun
    | ⟨.storeByte address byte, _⟩ => some (address, byte)
    | _ => none

def access (x : Exchange Bus) : Exchange Machine := ⟨.bus x.request, x.reply⟩

variable {log : List (Exchange Machine)} {below : List (Exchange Bus)}

theorem follows_onBus {α : Type} {p : Program Bus α} {a : α} :
    Follows (onBus p) log a ↔ ∃ below, Follows p below a ∧ log = below.map access :=
  follows_renamed fun r _ _ => follows_call (I := Machine) (r := .bus r)

theorem accesses_access : accesses (below.map access) = below := by
  rw [accesses, List.filterMap_map]
  exact List.filterMap_some

theorem stores_access : stores (below.map access) = [] := by
  rw [stores, List.filterMap_map]
  exact List.filterMap_eq_nil_iff.mpr fun _ _ => rfl

end Machine

namespace Bootloader

/-- The bytes that a receiver sends. -/
def sent : Exchange Target → List UInt8
  | ⟨.link r, reply⟩ => Link.sent ⟨r, reply⟩
  | _ => []

/-- The bytes that a receiver takes. -/
def taken : Exchange Target → List UInt8
  | ⟨.link r, reply⟩ => Link.taken ⟨r, reply⟩
  | _ => []

/-- These bytes have passed through the port, and these into memory, and the rate of the port has been
left alone. -/
structure Passed (u : Uart) (log : List (Exchange Machine)) (out into : List UInt8)
    (stored : List (UInt32 × UInt8)) : Prop where
  moved : (Port.narrow u).Moved (Machine.accesses log) out into
  stored : Machine.stores log = stored
  rate : ∀ x ∈ log, ∀ divisor, x.request ≠ .bus (.store (Bus.narrow u.divisor) divisor)

section Passing

variable {u : Uart} {first second log : List (Exchange Machine)} {out out' into into' : List UInt8}
  {stored stored' : List (UInt32 × UInt8)}

theorem Passed.nil : Passed u [] [] [] [] := ⟨.nil, rfl, by simp⟩

theorem Passed.append (h : Passed u first out into stored) (h' : Passed u second out' into' stored') :
    Passed u (first ++ second) (out ++ out') (into ++ into') (stored ++ stored') where
  moved := by
    rw [Machine.accesses, List.filterMap_append]
    exact h.moved.append h'.moved
  stored := by
    rw [← h.stored, ← h'.stored]
    exact List.filterMap_append
  rate := List.forall_mem_append.mpr ⟨h.rate, h'.rate⟩

/-- No request sets the rate. -/
def KeepsRate (u : Uart) (r : Bus.Request) : Prop := ∀ divisor, r ≠ .store (Bus.narrow u.divisor) divisor

private theorem keepsRate_load (address : Address) : KeepsRate u (.load address) := by
  rintro divisor ⟨⟩

theorem divisor_ne_dataOut (u : Uart) : Bus.narrow u.divisor ≠ (Port.narrow u).dataOut := by
  have base : (Port.narrow u).dataOut = Bus.narrow (u.base + 0) := by rw [UInt64.add_zero]; rfl
  rw [base]
  exact fun same => absurd (Bus.narrow_add_inj.mp same) (by decide)

private theorem keepsRate_dataOut (word : UInt32) : KeepsRate u (.store (Port.narrow u).dataOut word) := by
  rintro divisor same
  injection same with places
  exact divisor_ne_dataOut u places.symm

private theorem confined_awaitSend : (Port.narrow u).awaitSend.Confined (KeepsRate u) :=
  confined_waitUntil ((confined_call (keepsRate_load _)).bind fun _ => trivial)

private theorem confined_carry (r : Link.Request) : ((Port.narrow u).carry r).Confined (KeepsRate u) := by
  cases r with
  | send b =>
    rw [Port.carry_send]
    exact confined_awaitSend.bind fun _ => confined_call (keepsRate_dataOut _)
  | flush =>
    rcases (Port.narrow u).carry_flush with same | same
    · exact same ▸ confined_awaitSend
    · rw [same]
      trivial
  | poll =>
    rw [Port.carry_poll]
    refine (confined_call (keepsRate_load _)).bind fun status => ?_
    split
    · exact (confined_call (keepsRate_load _)).bind fun _ => trivial
    · trivial

private theorem passed_link {r : Link.Request} {reply : Link.Reply r}
    (h : Follows (carry u (.link r)) log reply) :
    Passed u log (Link.sent ⟨r, reply⟩) (Link.taken ⟨r, reply⟩) [] := by
  obtain ⟨below, course, rfl⟩ := Machine.follows_onBus.mp h
  refine ⟨?_, Machine.stores_access, ?_⟩
  · rw [Machine.accesses_access]
    have carried : Carries (Port.narrow u).carry [(⟨r, reply⟩ : Exchange Link)] (below ++ []) :=
      .cons course .nil
    simpa using Port.moved_carries carried
  · intro x mem divisor same
    obtain ⟨y, here, rfl⟩ := List.mem_map.mp mem
    injection same with same
    exact course.confined (confined_carry r) y here divisor same

private theorem passed_store {address : UInt32} {byte : UInt8} {reply : Unit}
    (h : Follows (carry u (.store address byte)) log reply) : Passed u log [] [] [(address, byte)] := by
  obtain rfl := follows_call.mp h
  refine ⟨.nil, rfl, ?_⟩
  rintro x mem divisor same
  obtain rfl := List.mem_singleton.mp mem
  cases same

/-- On the machine passes what the receiver asked for. -/
theorem passed_carries {course : List (Exchange Target)} (h : Carries (carry u) course log) :
    Passed u log (course.flatMap sent) (course.flatMap taken) (Target.stores course) := by
  induction h with
  | nil => exact .nil
  | cons here _ ih =>
    rename_i x course _ _ _
    obtain ⟨request, reply⟩ := x
    cases request with
    | link r => exact (passed_link here).append ih
    | store address byte => exact (passed_store here).append ih

private theorem sent_spoken (bytes : List UInt8) : (spoken bytes).flatMap sent = bytes := by
  induction bytes with
  | nil => rfl
  | cons b bytes ih => exact congrArg (b :: ·) ih

private theorem taken_spoken (bytes : List UInt8) : (spoken bytes).flatMap taken = [] := by
  rw [List.flatMap_eq_nil_iff]
  rintro x mem
  obtain ⟨b, -, rfl⟩ := List.mem_map.mp mem
  rfl

theorem stores_spoken (bytes : List UInt8) : Target.stores (spoken bytes) = [] := by
  rw [Target.stores, List.filterMap_eq_nil_iff]
  rintro x mem
  obtain ⟨b, -, rfl⟩ := List.mem_map.mp mem
  rfl

private theorem passed_spoken {bytes : List UInt8} (h : Carries (carry u) (spoken bytes) log) :
    Passed u log bytes [] [] := by
  have passed := passed_carries h
  rwa [sent_spoken, taken_spoken, stores_spoken] at passed

theorem taken_eq (course : List (Exchange Target)) :
    course.flatMap taken = (Target.replies course).reduceOption := by
  induction course with
  | nil => rfl
  | cons x course ih =>
    obtain ⟨request, reply⟩ := x
    rw [List.flatMap_cons, ih]
    cases request with
    | store => rfl
    | link r =>
      cases r with
      | send | flush => rfl
      | poll =>
        cases reply with
        | none => rfl
        | some byte => exact (List.reduceOption_cons_of_some byte _).symm

private theorem passed_loading {loading : List (Exchange Target)} {polls : List (Option UInt8)}
    (h : Carries (carry u) loading log) (loads : Target.Loads loading polls stored) :
    Passed u log [] polls.reduceOption stored := by
  have silent : loading.flatMap sent = [] := by
    rw [List.flatMap_eq_nil_iff]
    rintro ⟨request, reply⟩ mem
    rcases loads.only _ mem with same | ⟨address, byte, same⟩ <;> cases same <;> rfl
  have passed := passed_carries h
  rwa [silent, taken_eq, loads.polls, loads.stored] at passed

end Passing

/-- Memory at this address is the port's registers. -/
def Covers (u : Uart) (address : UInt32) : Prop := address - u.base.toUInt32 < 20

instance (u : Uart) (address : UInt32) : Decidable (Covers u address) :=
  inferInstanceAs (Decidable (_ < _))

/-- What a bootloader for `c` has done by its end. -/
structure Boots (c : Configuration) (log : List (Exchange Machine)) (o : Opening) (data : List UInt8)
    (last : UInt8) (result : Except BootError Image) (told : List UInt8) : Prop where
  /-- The rate is set first. The announcement goes out before any byte is taken, and after the last
  byte is taken and the last one stored comes what is told. -/
  course : ∃ opening loading closing,
    log = ⟨.bus (.store (Bus.narrow c.port.divisor) (50000000 / c.baud)), ()⟩ :: (opening ++ loading ++ closing) ∧
    Passed c.port opening announcement [] [] ∧
    Passed c.port loading [] (o.bytes ++ data ++ [last]) (placed o.start data) ∧
    Passed c.port closing told [] []
  /-- Nothing else has passed through the port. -/
  moved : (Port.narrow c.port).Moved (Machine.accesses log) (announcement ++ told) (o.bytes ++ data ++ [last])
  /-- The image was stored, inside the window, and how it ended follows from the bytes. -/
  account : Account c.window o.start data last (Machine.stores log) result
  /-- No byte of the image went to the port. -/
  apart : ∀ x ∈ Machine.stores log, ¬ Covers c.port x.1
  told : Told result told

section Course

variable {c : Configuration} {log : List (Exchange Machine)}

theorem main_eq (reached : baudDivisor Platform.referenceClock c.baud = .ok (50000000 / c.baud)) :
    main c = .ask (I := Machine) (.bus (.store (Bus.narrow c.port.divisor) (50000000 / c.baud))) fun _ =>
      load c.port c.window := by
  rw [main, Uart.setBaud, reached]
  rfl

/-- Setting the rate is nothing that passes through the port. -/
theorem moved_rate (u : Uart) (divisor : UInt32) :
    (Port.narrow u).Moved [⟨.store (Bus.narrow u.divisor) divisor, ()⟩] [] [] := by
  have other := divisor_ne_dataOut u
  refine ⟨Port.guarded_of_not_data ?_, ?_, rfl⟩
  · rintro x mem data
    obtain rfl := List.mem_singleton.mp mem
    rcases data with same | ⟨word, same⟩
    · cases same
    · injection same with same
      exact other same
  · simp [Port.written, other]

theorem boots_of_follows (reached : baudDivisor Platform.referenceClock c.baud = .ok (50000000 / c.baud))
    (outside : ∀ address ∈ c.window, ¬ Covers c.port address) (h : Follows (main c) log ()) :
    ∃ o data last result told, Boots c log o data last result told := by
  rw [main_eq reached] at h
  obtain ⟨_, _, rfl, loaded⟩ := follows_ask.mp h
  rw [load_eq, follows_interpret] at loaded
  obtain ⟨course, session, carried⟩ := loaded
  obtain ⟨loading, polls, o, data, last, result, told, rfl, loads, bytes, account, tells⟩ :=
    follows_session session
  obtain ⟨_, closing, rfl, carried, later⟩ := carries_append.mp carried
  obtain ⟨_, storing, rfl, carried, middle⟩ := carries_append.mp carried
  obtain ⟨opening, waiting, rfl, first, flush⟩ := carries_append.mp carried
  have flushed : Passed c.port waiting [] [] [] := passed_carries flush
  have opened : Passed c.port (opening ++ waiting) announcement [] [] := by
    simpa using (passed_spoken first).append flushed
  have stored : Passed c.port storing [] (o.bytes ++ data ++ [last]) (placed o.start data) :=
    bytes ▸ passed_loading middle loads
  have closed : Passed c.port closing told [] [] := passed_spoken later
  have whole := (opened.append stored).append closed
  have all : Machine.stores (opening ++ waiting ++ storing ++ closing) = placed o.start data := by
    simpa using whole.stored
  have account' : Account c.window o.start data last
      (Machine.stores (opening ++ waiting ++ storing ++ closing)) result := all ▸ account
  refine ⟨o, data, last, result, told, ⟨_, _, _, rfl, opened, stored, closed⟩, ?_, account', ?_, tells⟩
  · have moved := (moved_rate c.port (50000000 / c.baud)).append whole.moved
    simp only [List.append_nil, List.nil_append] at moved
    exact moved
  · intro x mem
    exact outside x.1 (account'.inside x mem)

end Course

end Bootloader

end BoardSupport.Firmware

import BoardSupport.Proofs.Firmware.Building
import BoardSupport.Proofs.Firmware.Incoming
import BoardSupport.Proofs.Loader.Handover

/-! A bootloader from its build to what a loader makes of it. Whatever configuration the build accepts,
the rate can be set, an image goes where it may, and a loader that waits hears just the line before XON. -/
namespace BoardSupport.Firmware.Bootloader

open Program Boot Loader

section Listening

/-- A loader that hears this output in time, with any silence in between, ends with `chatter` and leaves
`unread` to be read. -/
def HeardAs (output chatter unread : List UInt8) : Prop :=
  ∀ (heard : List (Option UInt8)) (clock : Stream' Nat) (timeout : Nat) (passed : List UInt8),
    heard.reduceOption = output → InTime timeout clock heard.length →
    ∃ (rest : List (Option UInt8)) (clock' : Stream' Nat), rest.reduceOption = unread ∧
      Ends Session.host (awaitXon timeout).run ⟨heard.map .ofReply, clock, passed⟩
        (.ok (.ok chatter) ⟨rest.map .ofReply, clock', passed⟩)

private theorem split_at_byte {heard : List (Option UInt8)} {early late : List UInt8} {b : UInt8}
    (h : heard.reduceOption = early ++ b :: late) : ∃ before rest, heard = before ++ some b :: rest ∧
      before.reduceOption = early ∧ rest.reduceOption = late := by
  induction heard generalizing early with
  | nil => simp at h
  | cons reply heard ih =>
    cases reply with
    | none =>
      obtain ⟨before, rest, rfl, front, back⟩ := ih h
      exact ⟨none :: before, rest, rfl, front, back⟩
    | some first =>
      rw [List.reduceOption_cons_of_some] at h
      cases early with
      | nil =>
        obtain ⟨rfl, back⟩ := List.cons.inj h
        exact ⟨[], heard, rfl, rfl, back⟩
      | cons _ early =>
        obtain ⟨rfl, later⟩ := List.cons.inj h
        obtain ⟨before, rest, rfl, front, back⟩ := ih later
        exact ⟨some first :: before, rest, rfl, by rw [List.reduceOption_cons_of_some, front], back⟩

private theorem heardAs_announcement (told : List UInt8) :
    HeardAs (announcement ++ told) (line "Bootloader Ready!") told := by
  intro heard clock timeout passed output inTime
  rw [announcement, List.append_assoc, List.singleton_append] at output
  obtain ⟨before, rest, rfl, front, back⟩ := split_at_byte output
  have quiet : xon ∉ before.reduceOption := by
    rw [front]
    decide
  have shorter : before.length ≤ (before ++ some xon :: rest).length := by simp
  have sooner : InTime timeout clock before.length :=
    ⟨inTime.shown, fun k lt => inTime.early k (Nat.lt_of_lt_of_le lt shorter)⟩
  refine ⟨rest, clock.drop (before.length + 1), back, ?_⟩
  rw [List.map_append, List.map_cons, ← front]
  exact awaitXon_reaches_xon quiet sooner

end Listening

/-- Whatever configuration the build accepts, with numbers read in any way, a bootloader that comes to its
end has set the rate that it was built for, stored an image inside its window, and said what became of it,
and a loader that was waiting has heard the line before XON and nothing after it. It does come to its end as
soon as the bytes that it receives end a transfer. -/
theorem loads_as_built (read : Settings.Reader) (environment : Settings.Environment)
    (build : List (Exchange Host))
    (built : Follows (Settings.bootloaderWith read environment).run build (.ok ())) :
    ∃ c, Settings.Made read environment build c ∧ ((∀ address ∈ c.window, ¬ Covers c.port address) →
      (∀ log, Follows (main c) log () → ∃ o data last result told,
        Boots c log o data last result told ∧
        HeardAs (announcement ++ told) (line "Bootloader Ready!") told) ∧
      ∀ l : Line, l.Recurring → (∃ stored, Pending c.window l.bytes stored) ∨
        ∃ o data last result told log left,
          Ends (board c.port).recorded (main c) (l, []) (.ok () (left, log)) ∧
          Boots c log o data last result told ∧ l.bytes = o.bytes ++ data ++ last :: left.bytes) := by
  obtain ⟨c, made⟩ := Settings.made_of_follows built
  refine ⟨c, made, fun outside => ⟨?_, ?_⟩⟩
  · intro log follows
    obtain ⟨o, data, last, result, told, boots⟩ := boots_of_follows made.rate outside follows
    exact ⟨o, data, last, result, told, boots, heardAs_announcement told⟩
  · intro l recurring
    rcases ends_or_pending made.rate outside recurring with pending | ⟨log, left, ends, taken⟩
    · exact .inl pending
    have follows : Follows (main c) log () := by
      obtain ⟨-, rounds, ran⟩ := ends
      obtain ⟨_, rfl, follows⟩ := run_recorded ran
      exact follows
    obtain ⟨o, data, last, result, told, boots⟩ := boots_of_follows made.rate outside follows
    refine .inr ⟨o, data, last, result, told, log, left, ends, boots, ?_⟩
    rw [taken, boots.moved.collected, List.append_assoc, List.singleton_append]

/-- With nothing in the environment but where the build is. -/
theorem loads_as_built_by_default :
    let environment : Settings.Environment :=
      [("CARGO_MANIFEST_DIR", Text.bytes "/boot"), ("OUT_DIR", Text.bytes "/out")]
    let c : Configuration := ⟨0x20000000, 9600, ⟨0, 0xEFFF⟩⟩
    ∃ build, Follows (Settings.bootloader environment).run build (.ok ()) ∧
      Settings.Made Settings.readMarked environment build c ∧
      (∀ address ∈ c.window, ¬ Covers c.port address) ∧ ∀ log, Follows (main c) log () →
        ∃ o data last result told, Boots c log o data last result told ∧
          log.head? = some ⟨.bus (.store 0x20000008 5208), ()⟩ ∧
          ∀ x ∈ Machine.stores log, x.1 ≤ 0xEFFF := by
  intro environment c
  have asks : Settings.Asks Settings.readMarked environment c :=
    ⟨.absent rfl, .absent rfl, .absent rfl, .absent rfl⟩
  obtain ⟨build, built, -⟩ := Settings.yields_bootloaderWith.mpr
    ⟨⟨_, rfl⟩, c, asks, Settings.check_eq_ok_iff.mpr ⟨by decide, by decide, rfl⟩, _, rfl, rfl⟩
  obtain ⟨d, made, works⟩ := loads_as_built Settings.readMarked environment build built
  have same : d = c := by
    obtain ⟨uart, baud, first, last⟩ := d
    obtain rfl := made.uart.eq_default rfl
    obtain rfl := made.baud.eq_default rfl
    obtain rfl := made.first.eq_default rfl
    obtain rfl := made.last.eq_default rfl
    rfl
  subst same
  have outside : ∀ address ∈ c.window, ¬ Covers c.port address := by
    rintro address ⟨-, below⟩ covers
    have below : address.toNat ≤ 0xEFFF := below
    have covers : (address - 0x20000000).toNat < 20 := covers
    rw [UInt32.toNat_sub] at covers
    have base : (0x20000000 : UInt32).toNat = 0x20000000 := rfl
    omega
  refine ⟨build, built, made, outside, fun log follows => ?_⟩
  obtain ⟨o, data, last, result, told, boots, -⟩ := (works outside).1 log follows
  refine ⟨o, data, last, result, told, boots, ?_, fun x mem => (boots.account.inside x mem).2⟩
  have register : Bus.narrow c.port.divisor = 0x20000008 := by decide
  have divisor : (50000000 : UInt32) / c.baud = 5208 := by decide
  obtain ⟨opening, loading, closing, rfl, -⟩ := boots.course
  rw [register, divisor]
  rfl

end BoardSupport.Firmware.Bootloader

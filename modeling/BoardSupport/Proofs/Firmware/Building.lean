import BoardSupport.Proofs.Firmware.Constants
import BoardSupport.Proofs.Program.Failing

/-! What comes of building the bootloader in some environment. A build that is not given up writes one
file, and what that file declares is what the environment asks for. -/
namespace BoardSupport.Firmware.Settings

open Program Loader
open Bootloader (Configuration)

/-- The files that were to be written, with their contents, in order. -/
def filesWritten (log : List (Exchange Host)) : List (Path × List UInt8) :=
  log.filterMap fun
    | ⟨.writeFile path bytes, _⟩ => some (path, bytes)
    | _ => none

/-- A part of a build can come to this result, with these files written. -/
def Yields {α : Type} (p : Build α) (a : α) (files : List (Path × List UInt8)) : Prop :=
  ∃ log, Follows p.run log (.ok a) ∧ filesWritten log = files

/-- The number that an environment gives under a name, or the default if it has none there. -/
inductive Chosen (read : Reader) (environment : Environment) (name : String) (default : UInt32) : UInt32 → Prop
  | absent (unset : environment.lookup name = none) : Chosen read environment name default default
  | given {value : List UInt8} {text : String} {n : UInt32} (set : environment.lookup name = some value)
      (spelled : Text.Utf8.read? value = some text) (number : read text = .ok n) :
      Chosen read environment name default n

theorem Chosen.eq_default {read : Reader} {environment : Environment} {name : String} {default n : UInt32}
    (chosen : Chosen read environment name default n) (unset : environment.lookup name = none) : n = default := by
  cases chosen with
  | absent => rfl
  | given set =>
    rw [unset] at set
    cases set

/-- The configuration that an environment asks for. -/
structure Asks (read : Reader) (environment : Environment) (c : Configuration) : Prop where
  uart : Chosen read environment "TINYBOOT_UART_ADDR" 0x20000000 c.uart
  baud : Chosen read environment "TINYBOOT_BAUD" 9600 c.baud
  first : Chosen read environment "TINYBOOT_LOAD_START" 0 c.window.first
  last : Chosen read environment "TINYBOOT_LOAD_END" 0xEFFF c.window.last

/-- A build has made the bootloader for this configuration. -/
structure Made (read : Reader) (environment : Environment) (build : List (Exchange Host)) (c : Configuration) :
    Prop extends Asks read environment c where
  /-- The driver of the port can set the rate. -/
  rate : baudDivisor Platform.referenceClock c.baud = .ok (50000000 / c.baud)
  window : c.window.first ≤ c.window.last
  /-- The one file that is written declares this configuration. -/
  source : ∃ out bytes, environment.lookup "OUT_DIR" = some out ∧
    filesWritten build = [(inDirectory out "config.rs", bytes)] ∧ Constants.ofFile? bytes = some c

section Parts

variable {α β : Type} {p : Build α} {f : α → Build β} {a : α} {b : β} {e : Failure}
  {files : List (Path × List UInt8)} {environment : Environment} {name what line : String}

theorem yields_bind : Yields (p >>= f) b files ↔
    ∃ a first second, files = first ++ second ∧ Yields p a first ∧ Yields (f a) b second := by
  constructor
  · rintro ⟨log, h, rfl⟩
    rcases follows_session_bind.mp h with ⟨e, ⟨⟩, -⟩ | ⟨a, first, second, rfl, done, later⟩
    exact ⟨a, _, _, List.filterMap_append, ⟨first, done, rfl⟩, second, later, rfl⟩
  · rintro ⟨a, _, _, rfl, ⟨first, done, rfl⟩, second, later, rfl⟩
    exact ⟨first ++ second, follows_session_bind.mpr (.inr ⟨a, first, second, rfl, done, later⟩),
      List.filterMap_append⟩

theorem yields_pure {a' : α} : Yields (pure a) a' files ↔ a' = a ∧ files = [] := by
  constructor
  · rintro ⟨log, h, rfl⟩
    obtain ⟨rfl, same⟩ := follows_done.mp h
    exact ⟨Except.ok.inj same, rfl⟩
  · rintro ⟨rfl, rfl⟩
    exact ⟨[], .done _, rfl⟩

theorem not_yields_throw : ¬ Yields (throw e : Build α) a files := by
  rintro ⟨log, h, -⟩
  obtain ⟨-, ⟨⟩⟩ := follows_done.mp h

theorem yields_say : Yields (say line) () files ↔ files = [] := by
  constructor
  · rintro ⟨log, h, rfl⟩
    obtain ⟨_, -, said⟩ := follows_lift.mp h
    obtain rfl := follows_call.mp said
    rfl
  · rintro rfl
    exact ⟨_, follows_lift.mpr ⟨(), rfl, follows_call.mpr rfl⟩, rfl⟩

theorem yields_give {value : Except Failure α} : Yields (give value) a files ↔ value = .ok a ∧ files = [] := by
  cases value with
  | ok a' => exact yields_pure.trans (by rw [Except.ok.injEq, eq_comm])
  | error e => exact iff_of_false not_yields_throw (by rintro ⟨⟨⟩, -⟩)

theorem yields_demand {value : List UInt8} :
    Yields (demand environment name) value files ↔ environment.lookup name = some value ∧ files = [] := by
  unfold demand
  cases environment.lookup name with
  | none => exact iff_of_false not_yields_throw (by rintro ⟨⟨⟩, -⟩)
  | some found => exact yields_pure.trans (by rw [Option.some.injEq, eq_comm])

theorem yields_writeFile {path : Path} {bytes : List UInt8} :
    Yields (writeFile path bytes) () files ↔ files = [(path, bytes)] := by
  constructor
  · rintro ⟨log, h, rfl⟩
    rcases follows_session_bind.mp h with ⟨e, ⟨⟩, -⟩ | ⟨reply, first, second, rfl, asked, later⟩
    obtain ⟨_, -, written⟩ := follows_lift.mp asked
    obtain rfl := follows_call.mp written
    cases reply with
    | error e => exact absurd ⟨second, later, rfl⟩ not_yields_throw
    | ok =>
      obtain ⟨rfl, -⟩ := follows_done.mp later
      rfl
  · rintro rfl
    exact ⟨_, follows_session_bind.mpr (.inr ⟨.ok (), _, [], rfl,
      follows_lift.mpr ⟨_, rfl, follows_call.mpr rfl⟩, .done _⟩), rfl⟩

/-- A part that writes no file leaves all of them to the rest. -/
theorem yields_silent_bind {q : α → Prop} (silent : ∀ a files, Yields p a files ↔ q a ∧ files = []) :
    Yields (p >>= f) b files ↔ ∃ a, q a ∧ Yields (f a) b files := by
  simp only [yields_bind, silent]
  constructor
  · rintro ⟨a, _, second, rfl, ⟨holds, rfl⟩, later⟩
    exact ⟨a, holds, later⟩
  · rintro ⟨a, holds, later⟩
    exact ⟨a, [], files, rfl, ⟨holds, rfl⟩, later⟩

theorem yields_say_bind {p : Unit → Build α} : Yields (say line >>= p) a files ↔ Yields (p ()) a files := by
  rw [yields_silent_bind fun _ _ => yields_say.trans (and_iff_right trivial).symm]
  exact ⟨fun ⟨_, _, later⟩ => later, fun later => ⟨(), trivial, later⟩⟩

theorem yields_number {read : Reader} {default n : UInt32} :
    Yields (number read environment name what default) n files ↔
      Chosen read environment name default n ∧ files = [] := by
  unfold number
  rw [yields_say_bind]
  split
  next unset =>
    rw [yields_say_bind, yields_pure]
    refine and_congr_left fun _ => ⟨?_, ?_⟩
    · rintro rfl
      exact .absent unset
    · exact fun chosen => chosen.eq_default unset
  next value set =>
    constructor
    · intro h
      split at h
      · exact absurd h not_yields_throw
      next text spelled =>
        split at h
        next number =>
          obtain ⟨rfl, none⟩ := yields_pure.mp h
          exact ⟨.given set spelled number, none⟩
        · exact absurd h not_yields_throw
    · rintro ⟨unset | ⟨set', spelled, number⟩, none⟩
      · rw [unset] at set
        cases set
      · obtain rfl := Option.some.inj (set.symm.trans set')
        simp only [spelled, number]
        exact yields_pure.mpr ⟨rfl, none⟩

end Parts

section Whole

variable {read : Reader} {environment : Environment} {build : List (Exchange Host)} {c : Configuration}
  {files : List (Path × List UInt8)}

/-- The test of a rate is that of the driver, which divides the same clock. -/
theorem baudDivisor_eq_ok_iff {baud : UInt32} :
    baudDivisor Platform.referenceClock baud = .ok (50000000 / baud) ↔
      ¬ (baud = 0 ∨ referenceClock / baud = 0) := by
  have same : referenceClock = Platform.referenceClock := rfl
  unfold baudDivisor
  rw [same]
  split
  next unreachable => exact iff_of_false (by rintro ⟨⟩) (not_not.mpr unreachable)
  next reachable => exact iff_of_true rfl reachable

theorem check_eq_ok_iff {d : Configuration} : check c = .ok d ↔
    baudDivisor Platform.referenceClock c.baud = .ok (50000000 / c.baud) ∧
      c.window.first ≤ c.window.last ∧ c = d := by
  rw [baudDivisor_eq_ok_iff, ← UInt32.not_lt]
  unfold check
  split
  next unreachable => exact iff_of_false (by rintro ⟨⟩) fun h => h.1 unreachable
  next reachable =>
    split
    next empty => exact iff_of_false (by rintro ⟨⟩) fun h => h.2.1 empty
    next full => rw [Except.ok.injEq, and_iff_right reachable, and_iff_right full]

/-- A build succeeds for a configuration that the environment asks for and that passes the tests. -/
theorem yields_bootloaderWith : Yields (bootloaderWith read environment) () files ↔
    (∃ here, environment.lookup "CARGO_MANIFEST_DIR" = some here) ∧
      ∃ c, Asks read environment c ∧ check c = .ok c ∧ ∃ out, environment.lookup "OUT_DIR" = some out ∧
        files = [(inDirectory out "config.rs", Text.bytes (configurationText c))] := by
  unfold bootloaderWith
  simp only [yields_say_bind, yields_silent_bind fun _ _ => yields_demand,
    yields_silent_bind fun _ _ => yields_number, yields_silent_bind fun _ _ => yields_give, yields_writeFile,
    exists_and_right]
  refine and_congr_right fun _ => ⟨?_, ?_⟩
  · rintro ⟨uart, asksUart, baud, asksBaud, first, asksFirst, last, asksLast, d, checked, later⟩
    obtain ⟨-, -, rfl⟩ := check_eq_ok_iff.mp checked
    exact ⟨_, ⟨asksUart, asksBaud, asksFirst, asksLast⟩, checked, later⟩
  · rintro ⟨c, asks, checked, later⟩
    exact ⟨c.uart, asks.uart, c.baud, asks.baud, c.window.first, asks.first, c.window.last, asks.last, c, checked,
      later⟩

theorem made_of_follows (h : Follows (bootloaderWith read environment).run build (.ok ())) :
    ∃ c, Made read environment build c := by
  obtain ⟨-, c, asks, checked, out, found, written⟩ := yields_bootloaderWith.mp ⟨build, h, rfl⟩
  obtain ⟨rate, window, -⟩ := check_eq_ok_iff.mp checked
  exact ⟨c, asks, rate, window, out, _, found, written, Constants.ofFile?_configurationText c⟩

end Whole

end BoardSupport.Firmware.Settings

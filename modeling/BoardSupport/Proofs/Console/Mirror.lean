import BoardSupport.Console
import BoardSupport.Proofs.Display.Painting

/-! The screen of a console mirrors its terminal after every operation of the console, whatever has
been drawn over it before. -/
namespace BoardSupport.Console

open Program TextDisplay

/-- What is written at once. Formatted output comes as a text for each of its pieces. -/
inductive Writing
  | byte (b : UInt8)
  | text (s : String)

namespace Writing

/-- A character that is not ASCII counts as one question mark. -/
def codes : Writing → List UInt8
  | byte b => [b]
  | text s => s.toList.map fun c => if c.toNat < 128 then c.toUInt8 else '?'.toUInt8

end Writing

def say (c : Console) : Writing → Program Bus Console
  | .byte b => c.putByte b
  | .text s => c.write s

/-- What is done with a console, or on its display behind its back. -/
inductive Action
  | write (writing : Writing)
  | clear
  | refresh
  | draw (drawing : Drawing)

namespace Action

def perform (c : Console) : Action → Program Bus Console
  | write writing => c.say writing
  | clear => c.clear
  | refresh => do
    c.refresh
    return c
  | draw drawing => do
    drawing.draw c.display
    return c

def Own : Action → Prop
  | draw _ => False
  | _ => True

end Action

structure Entry where
  action : Action
  console : Console
  memory : Address → UInt32
  log : List (Exchange Bus)

/-- What comes of actions one after another, up to the first that gives up. -/
def history (rounds : Nat) : Console → (Address → UInt32) → List Action → List Entry
  | _, _, [] => []
  | c, m, action :: actions =>
    match (action.perform c).run rounds Bus.memory.recorded (m, []) with
    | .ok c' (m', log) => ⟨action, c', m', log⟩ :: history rounds c' m' actions
    | .error .. => []

/-- Each cell of a screen at `base` shows what the terminal has there. -/
def Mirrors (base : Address) (t : Terminal 80 30) (m : Address → UInt32) : Prop :=
  ∀ x (hx : x < 80) y (hy : y < 30),
    m (base + UInt64.ofNat (4 * (80 * y + x))) = cell (t.row ⟨y, hy⟩)[x] .white .black

/-- Of two terminals with the same screen each shows what the other does. -/
theorem Mirrors.row_eq {base : Address} {t t' : Terminal 80 30} {m : Address → UInt32} (h : Mirrors base t m)
    (h' : Mirrors base t' m) (y : Fin 30) : t.row y = t'.row y := by
  apply Vector.ext
  intro x hx
  have same := (h x hx y y.isLt).symm.trans (h' x hx y y.isLt)
  exact (cell_inj.mp same).1

/-- Nothing is done but to store to the 2400 words at `base`. -/
def Confined (base : Address) (log : List (Exchange Bus)) : Prop :=
  ∀ x ∈ log, ∃ i < 2400, ∃ word, x.request = .store (base + UInt64.ofNat (4 * i)) word

section Redraw

variable {c c' : Console} {m m' : Address → UInt32} {log : List (Exchange Bus)} {rounds : Nat}

private def redraw (c : Console) : Program Bus Console := do
  c.refresh
  return c

private theorem bounded_redraw (c : Console) : c.redraw.Bounded c.display.OnScreen :=
  (refresh_paints c.terminal).onScreen.bind fun _ => trivial

private theorem redraw_mirrors (course : Follows c.redraw log c')
    (answered : Bus.memory.Answers m log m') : c' = c ∧ Mirrors c.display.base c.terminal m' := by
  obtain ⟨_, first, second, rfl, painted, ended⟩ := follows_bind.mp course
  obtain ⟨rfl, rfl⟩ := follows_done.mp ended
  rw [List.append_nil] at answered
  refine ⟨rfl, ?_⟩
  intro x hx y hy
  have shown := (refresh_paints c'.terminal).shown painted answered x hx y hy
  rwa [Picture.ofTerminal_of_lt c'.terminal hx hy, Option.getD_some, address_eq] at shown

private theorem redraw_confined (course : Follows c.redraw log c') : Confined c.display.base log := by
  intro exchange member
  obtain ⟨request, reply⟩ := exchange
  have onScreen := course.bounded (bounded_redraw c) _ member
  cases request with
  | load | idle => exact onScreen.elim
  | store address word =>
    obtain ⟨x, hx, y, hy, rfl⟩ := onScreen
    unfold columns at hx
    unfold lines at hy
    exact ⟨80 * y + x, by omega, word, by rw [address_eq]⟩

private theorem run_redraw (rounds : Nat) (c : Console) (m : Address → UInt32) :
    ∃ m', c.redraw.run rounds Bus.memory m = .ok c m' ∧ Mirrors c.display.base c.terminal m' := by
  obtain ⟨c', m', ran⟩ := (bounded_redraw c).run rounds Bus.memory m
  obtain ⟨log, course, answered⟩ := run_course ran
  obtain ⟨rfl, mirrors⟩ := redraw_mirrors course answered
  exact ⟨m', ran, mirrors⟩

end Redraw

section History

variable {c c' : Console} {m m' : Address → UInt32} {log : List (Exchange Bus)} {rounds : Nat}
  {action : Action}

/-- Whatever the console does to its terminal, a redraw is all that follows. -/
private theorem perform_eq_redraw (own : action.Own) (c : Console) :
    ∃ c' : Console, c'.display = c.display ∧ action.perform c = c'.redraw := by
  cases action with
  | write writing =>
    cases writing with
    | byte b => exact ⟨⟨c.display, c.terminal.writeByte b⟩, rfl, rfl⟩
    | text s => exact ⟨⟨c.display, c.terminal.write s⟩, rfl, rfl⟩
  | clear => exact ⟨⟨c.display, c.terminal.clear⟩, rfl, rfl⟩
  | refresh => exact ⟨c, rfl, rfl⟩
  | draw => exact own.elim

private theorem eq_draw_of_not_own (other : ¬ action.Own) : ∃ drawing, action = .draw drawing := by
  cases action with
  | draw drawing => exact ⟨drawing, rfl⟩
  | _ => exact absurd trivial other

/-- Only a drawing gives up, and only if it does not fit. -/
private theorem unfit_of_error {e : Halt Empty} {d : (Address → UInt32) × List (Exchange Bus)}
    (failed : (action.perform c).run rounds Bus.memory.recorded (m, []) = .error e d) :
    ∃ drawing, action = .draw drawing ∧ ¬ drawing.Fits := by
  -- What is bounded ends on every bus, in however few rounds.
  have unbounded : ¬ (action.perform c).Bounded c.display.OnScreen := by
    intro bounded
    obtain ⟨_, _, ran⟩ := bounded.run rounds Bus.memory.recorded (m, [])
    rw [failed] at ran
    cases ran
  by_cases own : action.Own
  · obtain ⟨c', display, same⟩ := perform_eq_redraw own c
    rw [same, ← display] at unbounded
    exact absurd (bounded_redraw c') unbounded
  · obtain ⟨drawing, rfl⟩ := eq_draw_of_not_own own
    exact ⟨drawing, rfl, fun fits => unbounded (fits.bounded.bind fun _ => trivial)⟩

private theorem perform_display (course : Follows (action.perform c) log c') :
    c'.display = c.display := by
  by_cases own : action.Own
  · obtain ⟨drawn, display, same⟩ := perform_eq_redraw own c
    rw [same] at course
    obtain ⟨_, first, second, rfl, -, ended⟩ := follows_bind.mp course
    rw [(follows_done.mp ended).2, display]
  · obtain ⟨drawing, rfl⟩ := eq_draw_of_not_own own
    obtain ⟨_, first, second, rfl, -, ended⟩ := follows_bind.mp course
    rw [(follows_done.mp ended).2]

private theorem perform_mirrors (own : action.Own) (course : Follows (action.perform c) log c')
    (answered : Bus.memory.Answers m log m') :
    Mirrors c.display.base c'.terminal m' ∧ Confined c.display.base log := by
  obtain ⟨drawn, display, same⟩ := perform_eq_redraw own c
  rw [same] at course
  obtain ⟨rfl, mirrors⟩ := redraw_mirrors course answered
  exact display ▸ ⟨mirrors, redraw_confined course⟩

/-- The history lacks no action before a drawing that does not fit. -/
private theorem history_prefix (rounds : Nat) (c : Console) (m : Address → UInt32) (actions : List Action) :
    (history rounds c m actions).map Entry.action <+: actions ∧
      ∀ action, actions[(history rounds c m actions).length]? = some action →
        ∃ drawing, action = .draw drawing ∧ ¬ drawing.Fits := by
  induction actions generalizing c m with
  | nil => simp [history]
  | cons action actions ih =>
    unfold history
    split
    next c' m' log ran =>
      obtain ⟨listed, complete⟩ := ih c' m'
      refine ⟨?_, ?_⟩
      · simpa using listed
      · simpa using complete
    next e d failed =>
      refine ⟨by simp, ?_⟩
      intro first same
      cases same
      exact unfit_of_error failed

private theorem mirrors_of_mem_history {actions : List Action} {e : Entry}
    (member : e ∈ history rounds c m actions) (own : e.action.Own) :
    Mirrors c.display.base e.console.terminal e.memory ∧ Confined c.display.base e.log := by
  induction actions generalizing c m with
  | nil => cases member
  | cons action actions ih =>
    unfold history at member
    split at member
    next c' m' log ran =>
      obtain ⟨course, follows, answered⟩ := run_course ran
      obtain ⟨answered, rfl⟩ := answers_recorded.mp answered
      rcases List.mem_cons.mp member with rfl | later
      · exact perform_mirrors own follows answered
      · exact perform_display follows ▸ ih later
    next => cases member

end History

section Chunking

variable {c : Console} {m : Address → UInt32} {rounds : Nat}

private def written (c : Console) (writing : Writing) : Console :=
  { c with terminal := c.terminal.writeBytes writing.codes }

private theorem say_eq_redraw (c : Console) (writing : Writing) :
    c.say writing = (c.written writing).redraw := by
  cases writing <;> rfl

private theorem foldl_written (writings : List Writing) (c : Console) :
    writings.foldl written c = { c with terminal := c.terminal.writeBytes (writings.flatMap Writing.codes) } := by
  induction writings generalizing c with
  | nil => rfl
  | cons writing rest ih =>
    rw [List.foldl_cons, ih, List.flatMap_cons]
    simp only [written, Terminal.writeBytes, List.foldl_append]

/-- Once anything is written, the screen mirrors the terminal. -/
private theorem run_say (writings : List Writing)
    (shown : writings = [] → Mirrors c.display.base c.terminal m) :
    ∃ m', (writings.foldlM say c).run rounds Bus.memory m = .ok (writings.foldl written c) m' ∧
      Mirrors c.display.base (writings.foldl written c).terminal m' := by
  induction writings generalizing c m with
  | nil => exact ⟨m, rfl, shown rfl⟩
  | cons writing rest ih =>
    obtain ⟨mid, ran, mirrors⟩ := run_redraw rounds (c.written writing) m
    obtain ⟨m', later, shown'⟩ := ih fun _ => mirrors
    refine ⟨m', ?_, shown'⟩
    rw [List.foldlM_cons, run_bind, say_eq_redraw]
    change EStateM.bind _ _ m = _
    simp only [EStateM.bind, ran]
    exact later

end Chunking

/-- What holds of the history of actions on a console whose screen is at `base`. -/
structure Faithful (base : Address) (actions : List Action) (entries : List Entry) : Prop where
  listed : entries.map Entry.action <+: actions
  /-- Only a drawing past the last column gives up. -/
  complete : ∀ action, actions[entries.length]? = some action →
    ∃ drawing, action = .draw drawing ∧ ¬ drawing.Fits
  mirrors : ∀ e ∈ entries, e.action.Own → Mirrors base e.console.terminal e.memory
  confined : ∀ e ∈ entries, e.action.Own → Confined base e.log

def SameScreen (base : Address) (m m' : Address → UInt32) : Prop :=
  ∀ i < 2400, m (base + UInt64.ofNat (4 * i)) = m' (base + UInt64.ofNat (4 * i))

private theorem sameScreen_of_mirrors {base : Address} {t : Terminal 80 30} {m m' : Address → UInt32}
    (h : Mirrors base t m) (h' : Mirrors base t m') : SameScreen base m m' := by
  intro i hi
  have cell : 80 * (i / 80) + i % 80 = i := Nat.div_add_mod i 80
  have shown := h (i % 80) (by omega) (i / 80) (by omega)
  have shown' := h' (i % 80) (by omega) (i / 80) (by omega)
  rw [cell] at shown shown'
  rw [shown, shown']

/-- Whatever is drawn in between, after each action of its own a console has its terminal on the screen,
and it has stored to nothing else. So it does not matter how a text is cut into pieces to be written,
or what was on the screen before. -/
theorem history_mirrors (rounds : Nat) (c : Console) :
    (∀ m actions, Faithful c.display.base actions (history rounds c m actions)) ∧
    ∀ (m m' : Address → UInt32) (writings writings' : List Writing), writings ≠ [] → writings' ≠ [] →
      writings.flatMap Writing.codes = writings'.flatMap Writing.codes →
      let after : Console := ⟨c.display, c.terminal.writeBytes (writings.flatMap Writing.codes)⟩
      ∃ n n', (writings.foldlM say c).run rounds Bus.memory m = .ok after n ∧
        (writings'.foldlM say c).run rounds Bus.memory m' = .ok after n' ∧
        SameScreen c.display.base n n' := by
  constructor
  · intro m actions
    obtain ⟨listed, complete⟩ := history_prefix rounds c m actions
    exact ⟨listed, complete, fun e member own => (mirrors_of_mem_history member own).1,
      fun e member own => (mirrors_of_mem_history member own).2⟩
  · intro m m' writings writings' some some' same
    obtain ⟨n, ran, mirrors⟩ := run_say writings fun none => absurd none some
    obtain ⟨n', ran', mirrors'⟩ := run_say writings' fun none => absurd none some'
    rw [foldl_written] at ran mirrors
    rw [foldl_written, ← same] at ran' mirrors'
    exact ⟨n, n', ran, ran', sameScreen_of_mirrors mirrors mirrors'⟩

theorem history_mirrors_in_pieces :
    let c := onDisplay ⟨0xFFFFFFFFFFFFFF00⟩
    let whole : List Writing := [.text "abö"]
    let pieces : List Writing := [.byte 97, .text "", .text "b?"]
    whole ≠ [] ∧ pieces ≠ [] ∧ whole.flatMap Writing.codes = pieces.flatMap Writing.codes ∧
      let after : Console := ⟨c.display, c.terminal.writeBytes [97, 98, 63]⟩
      ∃ n n', (whole.foldlM say c).run 0 Bus.memory (fun _ => 0) = .ok after n ∧
        (pieces.foldlM say c).run 0 Bus.memory (fun _ => 1) = .ok after n' ∧
        SameScreen c.display.base n n' := by
  intro c whole pieces
  have some : whole ≠ [] := List.cons_ne_nil _ _
  have some' : pieces ≠ [] := List.cons_ne_nil _ _
  have same : whole.flatMap Writing.codes = pieces.flatMap Writing.codes := by decide
  exact ⟨some, some', same, (history_mirrors 0 c).2 (fun _ => 0) (fun _ => 1) whole pieces some some' same⟩

end BoardSupport.Console

import BoardSupport.Oled.Writer
import BoardSupport.Proofs.Oled.Refreshing
import BoardSupport.Proofs.Program.Carrying

/-! Text written straight to a panel, with anything done to the panel in between. Each character is aimed
at anew, and the cursor moves only once it is drawn. -/
namespace BoardSupport.Oled

open Program Writer

variable {ε : Type} {p : Panel}

/-- What can be done to a panel directly. -/
inductive Operation
  | start
  | sleep
  | lightAll
  | showMemory
  | setAddressMode (mode : AddressMode)
  | setPageRange (first last : UInt8)
  | setColumnRange (first last : UInt8)
  | writeByte (d : UInt8)
  | writeRun (d : UInt8) (n : Nat)
  | writeData (data : List UInt8)
  | writeGlyph (c : UInt8)
  | writeSolid
  | fill (d : UInt8)
  | clear
  | setCursor (column line : Nat)
  | refresh {w h : Nat} (t : Terminal w h)

def Operation.perform (p : Panel) : Operation → Session ε Unit
  | start => Oled.start
  | sleep => Oled.sleep
  | lightAll => Oled.lightAll
  | showMemory => Oled.showMemory
  | setAddressMode mode => Oled.setAddressMode mode
  | setPageRange first last => Oled.setPageRange first last
  | setColumnRange first last => Oled.setColumnRange first last
  | writeByte d => Oled.writeByte d
  | writeRun d n => Oled.writeRun d n
  | writeData data => Oled.writeData data
  | writeGlyph c => Oled.writeGlyph c
  | writeSolid => Oled.writeSolid
  | fill d => p.fill d
  | clear => p.clear
  | setCursor column line => p.setCursor column line
  | refresh t => p.refresh t

inductive Call
  | put (c : UInt8)
  | write (s : String)
  | newline
  | carriageReturn
  | clearLine
  | display (operation : Operation)

def Call.perform : Call → Writing ε p Unit
  | put c => Writer.put c
  | write s => Writer.write s
  | newline => Writer.newline
  | carriageReturn => Writer.carriageReturn
  | clearLine => Writer.clearLine
  | display operation => onPanel (operation.perform p)

/-- What is in the panel's memory, and where the cursor is. -/
structure View where
  memory : Nat → Nat → UInt8
  x : Nat
  y : Nat

namespace View

/-- A character in its place. Line feed and carriage return only move the cursor. -/
def typed (pages : Nat) (v : View) (c : UInt8) : View :=
  if c = 10 then { v with x := 0, y := (v.y + 1) % pages }
  else if c = 13 then { v with x := 0 }
  else
    { memory := fun page column =>
        if page = v.y ∧ column / 8 = v.x then glyphByte c column else v.memory page column
      x := if v.x + 1 < 16 then v.x + 1 else 0
      y := if v.x + 1 < 16 then v.y else (v.y + 1) % pages }

/-- The cursor's line dark, and the cursor at its start. -/
def cleared (v : View) : View :=
  { v with
    memory := fun page column => if page = v.y ∧ column < 128 then 0 else v.memory page column
    x := 0 }

end View

/-- Of these characters some have been typed, all of them if nothing went wrong; else the next one is at
fault, and it is one that is drawn. -/
def Typed (pages : Nat) (characters : List UInt8) (before after : View) (result : Except ε Unit) : Prop :=
  ∃ done rest, characters = done ++ rest ∧ after = done.foldl (View.typed pages) before ∧
    (result = .ok () ∧ rest = [] ∨
      (∃ e, result = .error e) ∧ ∃ c more, rest = c :: more ∧ c ≠ 10 ∧ c ≠ 13)

/-- A panel on its bus, and the place where a writer keeps its cursor. -/
structure Desk (ε : Type) (p : Panel) where
  rig : Rig ε
  cursor : Cursor p

def Desk.view (d : Desk ε p) : View := ⟨d.rig.chip.memory, d.cursor.x, d.cursor.y⟩

/-- What a call does. -/
def Call.Does (call : Call) (before after : Desk ε p) (result : Except ε Unit) : Prop :=
  match call with
  | put c => Typed p.pages [c] before.view after.view result
  | write s => Typed p.pages (Text.bytes s) before.view after.view result
  | newline => result = .ok () ∧ after.rig = before.rig ∧ after.view = before.view.typed p.pages 10
  | carriageReturn => result = .ok () ∧ after.rig = before.rig ∧ after.view = before.view.typed p.pages 13
  | clearLine => (result = .ok () → after.view = before.view.cleared) ∧
      (result ≠ .ok () → after.view.memory = before.view.memory)
  | display _ => after.cursor = before.cursor

def desk (habits : Chip.Habits) : Device (Writer ε p) Empty (Desk ε p)
  | .transfer t => fun d =>
    match panelBus habits t d.rig with
    | .ok reply rig => .ok reply { d with rig }
    | .error never _ => nomatch never
  | .cursor => fun d => .ok d.cursor d
  | .place c => fun d => .ok () { d with cursor := c }

section Desks

variable {habits : Chip.Habits} {d : Desk ε p}

private theorem ends_cursor : Ends (desk habits) (cursor (ε := ε)).run d (.ok (.ok d.cursor) d) :=
  .ask rfl (.done _ _)

private theorem ends_place (c : Cursor p) :
    Ends (desk habits) (place (ε := ε) c).run d (.ok (.ok ()) { d with cursor := c }) :=
  .ask rfl (.done _ _)

private def onDesk (x : Exchange (I2c.Controller ε)) : Exchange (Writer ε p) :=
  ⟨.transfer x.request, x.reply⟩

private theorem desk_answers {rig left : Rig ε} {log : List (Exchange (I2c.Controller ε))}
    (h : (panelBus habits).Answers rig log left) (c : Cursor p) :
    (desk habits).Answers ⟨rig, c⟩ (log.map onDesk) ⟨left, c⟩ := by
  induction h with
  | nil => exact .nil _
  | @cons rig mid _ x _ reply _ ih =>
    have reply' : desk habits (.transfer x.request) ⟨rig, c⟩ = .ok x.reply (⟨mid, c⟩ : Desk ε p) := by
      simp only [desk, reply]
    exact .cons (x := onDesk x) reply' ih

/-- What a session does on the bus it does on the desk. -/
private theorem ends_onPanel {s : Session ε Unit} {result : Except ε Unit} {left : Rig ε}
    (h : Ends (panelBus habits) s.run d.rig (.ok result left)) :
    Ends (desk habits) (onPanel (p := p) s).run d (.ok result { d with rig := left }) := by
  obtain ⟨log, follows, answered⟩ := h.course
  have below : Follows (onPanel (p := p) s).run (log.map onDesk) result :=
    (follows_renamed fun r _ _ => follows_call (I := Writer ε p) (r := .transfer r)).mpr ⟨log, follows, rfl⟩
  exact below.ends (desk_answers answered d.cursor)

private theorem onPanel_bind (s s' : Session ε Unit) :
    onPanel (p := p) (s >>= fun _ => s') = onPanel s >>= fun _ => onPanel s' := by
  apply ExceptT.ext
  rw [ExceptT.run_bind, onPanel, ExceptT.run_mk, ExceptT.run_bind, interpret_bind]
  refine congrArg (_ >>= ·) (funext fun result => ?_)
  cases result <;> rfl

/-- Moving the pointer keeps what is in memory, however far it comes. -/
private theorem memory_aiming {column line : Nat} {done undone : List (List UInt8)} (chip : Chip)
    (part : aiming p column line = done ++ undone) :
    (done.foldl (Chip.obey habits) chip).memory = chip.memory := by
  have each : ∀ bytes ∈ aiming p column line, ∀ chip : Chip,
      (chip.obey habits bytes).memory = chip.memory := by
    simp only [aiming, List.forall_mem_cons]
    exact ⟨fun _ => rfl, fun _ => rfl, fun _ => rfl, by simp⟩
  rw [part] at each
  clear part
  induction done generalizing chip with
  | nil => rfl
  | cons bytes done ih =>
    rw [List.cons_append, List.forall_mem_cons] at each
    rw [List.foldl_cons, ih _ each.2, each.1]

variable (habits d) in
/-- Aiming at a cell and drawing in its line keeps the data there, or nothing at all. -/
private theorem ends_draw {s : Session ε Unit} {column line : Nat} {data : List UInt8}
    (inside : column < textColumns) (below : line < p.pages) (sends : Sends s [0x40 :: data])
    (fits : column * cellWidth + data.length ≤ columns) :
    ∃ result left, Ends (desk habits)
        (onPanel (p.setCursor column line) >>= fun _ => onPanel s : Writing ε p Unit).run d
        (.ok result { d with rig := left }) ∧
      (result = .ok () → ∀ page c, left.chip.memory page c =
        if page = line ∧ column * cellWidth ≤ c then
          data[c - column * cellWidth]?.getD (d.rig.chip.memory page c)
        else d.rig.chip.memory page c) ∧
      (result ≠ .ok () → left.chip.memory = d.rig.chip.memory) := by
  obtain ⟨result, left, delivers, ends⟩ := (sends_setCursor inside below).andThen sends habits d.rig
  rw [← onPanel_bind]
  refine ⟨result, left, ends_onPanel ends, ?_, fun failed => ?_⟩
  · rintro rfl page c
    have one : [data].flatten = data := List.flatten_singleton ..
    have drawn := memory_drawn habits d.rig.chip [data] inside below
      (by rwa [one]) page c
    rw [one] at drawn
    rw [delivers.obeyed]
    exact drawn
  · cases result with
    | ok _ => exact absurd rfl failed
    | error e =>
      obtain ⟨done, bytes, undone, split, same⟩ := delivers.broken
      -- What was refused is one of the three commands or the data after them.
      rcases List.append_eq_append_iff.mp split with ⟨more, rfl, rest⟩ | ⟨more, part, -⟩
      · obtain rfl : more = [] := by
          cases more with
          | nil => rfl
          | cons => simp at rest
        rw [same, memory_aiming d.rig.chip rfl]
      · rw [same, memory_aiming d.rig.chip part]

private theorem ends_newline :
    Ends (desk habits) (newline (ε := ε)).run d (.ok (.ok ()) { d with cursor := d.cursor.nextLine }) :=
  ends_cursor.proceed (ends_place _)

private theorem ends_carriageReturn :
    Ends (desk habits) (carriageReturn (ε := ε)).run d (.ok (.ok ()) { d with cursor := d.cursor.lineStart }) :=
  ends_cursor.proceed (ends_place _)

private theorem view_advance (c : Cursor p) : c.advance.x.val = (if c.x.val + 1 < 16 then c.x.val + 1 else 0) ∧
    c.advance.y.val = if c.x.val + 1 < 16 then c.y.val else (c.y.val + 1) % p.pages := by
  unfold Cursor.advance
  by_cases right : c.x.val + 1 < textColumns
  · have right' : c.x.val + 1 < 16 := right
    rw [dif_pos right, if_pos right', if_pos right']
    exact ⟨rfl, rfl⟩
  · have right' : ¬ c.x.val + 1 < 16 := right
    rw [dif_neg right, if_neg right', if_neg right']
    exact ⟨rfl, rfl⟩

/-- The eight columns of a cell. -/
private theorem memory_cell (b : UInt8) (x column : Nat) (other : UInt8) :
    (if x * cellWidth ≤ column then (Font.glyph b).toList[column - x * cellWidth]?.getD other else other) =
      if column / 8 = x then glyphByte b column else other := by
  have width : cellWidth = 8 := rfl
  rw [width]
  by_cases cell : column / 8 = x
  · have index : column - x * 8 = column % 8 := by omega
    have inside : column % 8 < (Font.glyph b).toList.length := by
      rw [Vector.length_toList]
      omega
    rw [if_pos (by omega), if_pos cell, index, List.getElem?_eq_getElem inside]
    exact Vector.getElem_toList inside
  · rw [if_neg cell]
    split
    · have beyond : (Font.glyph b).toList.length ≤ column - x * 8 := by
        rw [Vector.length_toList]
        omega
      rw [List.getElem?_eq_none_iff.mpr beyond]
      rfl
    · rfl

variable (habits d) in
/-- A character is typed, or the panel refuses it and nothing changes. -/
private theorem ends_put (c : UInt8) : ∃ result left, Ends (desk habits) (put (ε := ε) c).run d (.ok result left) ∧
    (result = .ok () → left.view = d.view.typed p.pages c) ∧
    (result ≠ .ok () → left.view = d.view ∧ c ≠ 10 ∧ c ≠ 13) := by
  unfold put
  by_cases feed : c = 10
  · rw [if_pos feed]
    refine ⟨.ok (), _, ends_newline, fun _ => ?_, fun failed => absurd rfl failed⟩
    rw [View.typed, if_pos feed]
    rfl
  by_cases returns : c = 13
  · rw [if_neg feed, if_pos returns]
    refine ⟨.ok (), _, ends_carriageReturn, fun _ => ?_, fun failed => absurd rfl failed⟩
    rw [View.typed, if_neg feed, if_pos returns]
    rfl
  rw [if_neg feed, if_neg returns]
  have fits : d.cursor.x.val * cellWidth + (Font.glyph c).toList.length ≤ columns := by
    have inside := d.cursor.x.isLt
    rw [Vector.length_toList]
    simp only [textColumns, cellWidth, columns] at inside ⊢
    omega
  obtain ⟨result, left, drawn, whole, nothing⟩ :=
    ends_draw habits d d.cursor.x.isLt d.cursor.y.isLt (sends_writeGlyph c) fits
  have moves (c : UInt8) : (do
      onPanel (p.setCursor d.cursor.x d.cursor.y)
      onPanel (writeGlyph c)
      place d.cursor.advance : Writing ε p Unit) =
      (onPanel (p.setCursor d.cursor.x d.cursor.y) >>= fun _ => onPanel (writeGlyph c)) >>= fun _ =>
        place d.cursor.advance := (bind_assoc ..).symm
  cases result with
  | error e =>
    refine ⟨.error e, { d with rig := left }, ends_cursor.proceed ?_, by rintro ⟨⟩, fun failed => ?_⟩
    · rw [moves]
      exact drawn.stop
    · rw [Desk.view, nothing failed]
      exact ⟨rfl, feed, returns⟩
  | ok _ =>
    refine ⟨.ok (), ⟨left, d.cursor.advance⟩, ends_cursor.proceed ?_, fun _ => ?_,
      fun failed => absurd rfl failed⟩
    · rw [moves]
      exact drawn.proceed (ends_place _)
    · obtain ⟨x, y⟩ := view_advance d.cursor
      rw [View.typed, if_neg feed, if_neg returns, Desk.view, x, y]
      congr 1
      funext page column
      rw [whole rfl]
      have cell := memory_cell c d.cursor.x column (d.rig.chip.memory page column)
      by_cases here : page = d.cursor.y
      · subst here
        simpa only [Desk.view, true_and] using cell
      · rw [if_neg fun both => here both.1, if_neg fun both => here both.1]
        rfl

private theorem ends_write (characters : List UInt8) : ∃ result left,
    Ends (desk habits) (characters.forM (put (ε := ε))).run d (.ok result left) ∧
      Typed p.pages characters d.view left.view result := by
  induction characters generalizing d with
  | nil => exact ⟨.ok (), d, .succeed _ _, [], [], rfl, rfl, .inl ⟨rfl, rfl⟩⟩
  | cons c characters ih =>
    obtain ⟨result, mid, put, typed, refused⟩ := ends_put habits d c
    cases result with
    | error e =>
      obtain ⟨same, drawn⟩ := refused (by rintro ⟨⟩)
      exact ⟨.error e, mid, put.stop, [], c :: characters, rfl, same, .inr ⟨⟨e, rfl⟩, c, characters, rfl, drawn⟩⟩
    | ok _ =>
      obtain ⟨result, left, rest, done, undone, rfl, after, ended⟩ := ih (d := mid)
      refine ⟨result, left, put.proceed rest, c :: done, undone, rfl, ?_, ended⟩
      rw [after, typed rfl, List.foldl_cons]

private theorem ends_clearLine : ∃ result left,
    Ends (desk habits) (clearLine (ε := ε)).run d (.ok result left) ∧
      (result = .ok () → left.view = d.view.cleared) ∧
      (result ≠ .ok () → left.view.memory = d.view.memory) := by
  have fits : 0 * cellWidth + (List.replicate columns (0 : UInt8)).length ≤ columns := by
    rw [List.length_replicate, Nat.zero_mul]
    exact Nat.le_of_eq (Nat.zero_add columns)
  obtain ⟨result, left, drawn, whole, nothing⟩ := ends_draw habits
    { d with cursor := d.cursor.lineStart } textColumns_pos d.cursor.y.isLt (sends_writeRun 0 columns) fits
  refine ⟨result, ⟨left, d.cursor.lineStart⟩, ends_carriageReturn.proceed (ends_cursor.proceed drawn), ?_, nothing⟩
  intro fine
  rw [Desk.view, View.cleared, Desk.view]
  congr 1
  funext page column
  rw [whole fine]
  have width : columns = 128 := rfl
  simp only [Nat.zero_mul, Nat.zero_le, and_true, Nat.sub_zero, List.getElem?_replicate, width]
  grind

private theorem sends_operation (operation : Operation) :
    ∃ script, Sends (operation.perform p : Session ε Unit) script := by
  cases operation with
  | start => exact ⟨_, (sends_transfer _).andThen (sends_transfer _)⟩
  | fill d | clear =>
    exact ⟨_, (sends_transfer _).andThen ((sends_transfer _).andThen ((sends_transfer _).andThen
      (sends_forM fun _ _ => sends_transfer _)))⟩
  | setCursor column line =>
    exact ⟨_, (sends_transfer _).andThen ((sends_transfer _).andThen (sends_transfer _))⟩
  | refresh t => exact ⟨_, sends_refresh p t⟩
  | _ => exact ⟨_, sends_transfer _⟩

variable (habits d) in
theorem ends_call (call : Call) : ∃ result left,
    Ends (desk habits) (call.perform (ε := ε)).run d (.ok result left) ∧
      call.Does d left result := by
  cases call with
  | put c =>
    obtain ⟨result, left, ends, typed, refused⟩ := ends_put habits d c
    refine ⟨result, left, ends, ?_⟩
    cases result with
    | error e =>
      obtain ⟨same, drawn⟩ := refused (by rintro ⟨⟩)
      exact ⟨[], [c], rfl, same, .inr ⟨⟨e, rfl⟩, c, [], rfl, drawn⟩⟩
    | ok _ => exact ⟨[c], [], rfl, typed rfl, .inl ⟨rfl, rfl⟩⟩
  | write s => exact ends_write (Text.bytes s)
  | newline => exact ⟨.ok (), _, ends_newline, rfl, rfl, rfl⟩
  | carriageReturn => exact ⟨.ok (), _, ends_carriageReturn, rfl, rfl, rfl⟩
  | clearLine => exact ends_clearLine
  | display operation =>
    obtain ⟨script, sends⟩ := sends_operation (ε := ε) (p := p) operation
    obtain ⟨result, left, -, ends⟩ := sends habits d.rig
    exact ⟨result, { d with rig := left }, ends_onPanel ends, rfl⟩

end Desks

/-- A call, what it found and what it left, and how it ended. -/
structure Entry (ε : Type) (p : Panel) where
  call : Call
  before : Desk ε p
  after : Desk ε p
  result : Except ε Unit

/-- Calls in a row on one desk. -/
inductive Runs (habits : Chip.Habits) : Desk ε p → List (Entry ε p) → Desk ε p → Prop
  | nil (d : Desk ε p) : Runs habits d [] d
  | cons {d mid left : Desk ε p} {call : Call} {result : Except ε Unit} {entries : List (Entry ε p)}
      (ran : Ends (desk habits) call.perform.run d (.ok result mid)) (rest : Runs habits mid entries left) :
      Runs habits d (⟨call, d, mid, result⟩ :: entries) left

section Runs

variable {habits : Chip.Habits} {d left : Desk ε p} {entries : List (Entry ε p)}

private theorem Runs.does (h : Runs habits d entries left) :
    ∀ e ∈ entries, e.call.Does e.before e.after e.result := by
  induction h with
  | nil => simp
  | @cons d _ _ call _ _ ran _ ih =>
    obtain ⟨result, left, ends, does⟩ := ends_call habits d call
    cases ran.unique ends
    exact List.forall_mem_cons.mpr ⟨does, ih⟩

private theorem exists_runs (calls : List Call) :
    ∃ entries left, entries.map Entry.call = calls ∧ Runs habits d entries left := by
  induction calls generalizing d with
  | nil => exact ⟨[], d, rfl, .nil d⟩
  | cons call calls ih =>
    obtain ⟨result, mid, ran, -⟩ := ends_call habits d call
    obtain ⟨entries, left, same, rest⟩ := ih (d := mid)
    exact ⟨⟨call, d, mid, result⟩ :: entries, left, congrArg (call :: ·) same, .cons ran rest⟩

end Runs

/-- Whatever is asked for, in whatever order, and whatever the bus refuses, each call returns. The cursor
stays on the panel, characters go where it is and move it on unless one is refused, which ends a text, and a
cleared line is dark. Moving the cursor does nothing to the panel, and acting on the panel nothing to the
cursor. -/
theorem calls_placed (p : Panel) (habits : Chip.Habits) (d : Desk ε p) :
    (∀ entries left, Runs habits d entries left → ∀ e ∈ entries,
      e.call.Does e.before e.after e.result ∧ e.after.view.x < 16 ∧ e.after.view.y < p.pages) ∧
    ∀ calls, ∃ entries left, entries.map Entry.call = calls ∧ Runs habits d entries left := by
  constructor
  · intro entries left runs e mem
    exact ⟨runs.does e mem, e.after.cursor.x.isLt, e.after.cursor.y.isLt⟩
  · intro calls
    exact exists_runs calls

end BoardSupport.Oled

import BoardSupport.Proofs.Oled.Refreshing
import Mathlib.Data.List.Nodup
import Mathlib.Data.List.Range

/-! A panel filled with one byte. The pages are sent one after another, and the pointer runs on from each to
the next and in the end back to the first. -/
namespace BoardSupport.Oled

open Program

variable {ε : Type} {habits : Chip.Habits} {chip : Chip} {p : Panel}

namespace Chip

/-- Where data is kept in its turn, by page and column. -/
def cells (chip : Chip) : List UInt8 → List (Nat × Nat)
  | [] => []
  | d :: data => (chip.page, chip.column) :: (chip.store d).cells data

theorem cells_append (data more : List UInt8) :
    chip.cells (data ++ more) = chip.cells data ++ (data.foldl store chip).cells more := by
  induction data generalizing chip with
  | nil => rfl
  | cons d data ih => rw [List.cons_append, cells, cells, ih, List.cons_append, List.foldl_cons]

theorem memory_uniform (d : UInt8) (n page column : Nat) :
    ((List.replicate n d).foldl store chip).memory page column =
      if (page, column) ∈ chip.cells (List.replicate n d) then d else chip.memory page column := by
  induction n generalizing chip with
  | zero => simp [cells]
  | succ n ih =>
    rw [List.replicate_succ, List.foldl_cons, ih, cells, store, memory_advance, keep]
    simp only [List.mem_cons, Prod.mk.injEq]
    grind

/-- What a controller writes in the transactions that nothing is assumed of. -/
abbrev Strays := List UInt8 → Chip → List (Nat × Nat)

/-- Where the bytes of one transaction are written. -/
def written (strays : Strays) (chip : Chip) : List UInt8 → List (Nat × Nat)
  | [0x00, 0x20, _] | [0x00, 0x21, _, _] | [0x00, 0x22, _, _] => []
  | 0x40 :: data => if chip.mode = 0 then chip.cells data else strays (0x40 :: data) chip
  | [0xC0, d] => if chip.mode = 0 then chip.cells [d] else strays [0xC0, d] chip
  | bytes => strays bytes chip

/-- Where the bytes of transactions one after another are written. -/
def writes (habits : Habits) (strays : Strays) (chip : Chip) : List (List UInt8) → List (Nat × Nat)
  | [] => []
  | bytes :: script => chip.written strays bytes ++ (chip.obey habits bytes).writes habits strays script

theorem writes_drawing (strays : Strays) (horizontal : chip.mode = 0) (parts : List (List UInt8)) :
    chip.writes habits strays (drawing parts) = chip.cells parts.flatten := by
  induction parts generalizing chip with
  | nil => rfl
  | cons part parts ih =>
    have first : chip.written strays (0x40 :: part) = chip.cells part := if_pos horizontal
    rw [drawing, List.map_cons, writes, first, obey_data horizontal]
    rw [← drawing, ih (mode_stored.trans horizontal), List.flatten_cons, cells_append]

/-- The pointer runs over a whole panel and has moved so many times. -/
structure Sweeps (p : Panel) (n : Nat) (chip : Chip) : Prop where
  firstColumn : chip.firstColumn = 0
  lastColumn : chip.lastColumn = 127
  firstPage : chip.firstPage = 0
  lastPage : chip.lastPage = p.pages - 1
  column : chip.column = n % 128
  page : chip.page = n / 128 % p.pages

private theorem succ_mod (k : Nat) {n : Nat} (pos : 0 < n) :
    (k + 1) % n = if k % n = n - 1 then 0 else k % n + 1 := by
  have below := Nat.mod_lt k pos
  rw [← Nat.mod_add_mod]
  split
  next last =>
    rw [last, Nat.sub_add_cancel pos]
    exact Nat.mod_self n
  next => exact Nat.mod_eq_of_lt (by omega)

theorem Sweeps.store {n : Nat} (h : Sweeps p n chip) (d : UInt8) : Sweeps p (n + 1) (chip.store d) := by
  by_cases edge : chip.column = chip.lastColumn
  · have moved : chip.store d = { chip.keep d with
        column := chip.firstColumn
        page := if chip.page = chip.lastPage then chip.firstPage else chip.page + 1 } := if_pos edge
    rw [moved]
    rw [h.column, h.lastColumn] at edge
    have next : (n + 1) / 128 = n / 128 + 1 := by omega
    refine ⟨h.firstColumn, h.lastColumn, h.firstPage, h.lastPage, ?_, ?_⟩
    · change chip.firstColumn = (n + 1) % 128
      rw [h.firstColumn]
      omega
    · rw [next, succ_mod _ p.pages_pos, h.page, h.lastPage, h.firstPage]
  · have moved : chip.store d = { chip.keep d with column := chip.column + 1 } := if_neg edge
    rw [moved]
    rw [h.column, h.lastColumn] at edge
    have same : (n + 1) / 128 = n / 128 := by omega
    refine ⟨h.firstColumn, h.lastColumn, h.firstPage, h.lastPage, ?_, ?_⟩
    · change chip.column + 1 = (n + 1) % 128
      rw [h.column]
      omega
    · rw [same]
      exact h.page

theorem Sweeps.stored {n : Nat} (h : Sweeps p n chip) (data : List UInt8) :
    Sweeps p (n + data.length) (data.foldl Chip.store chip) := by
  induction data generalizing n chip with
  | nil => exact h
  | cons d data ih =>
    rw [List.length_cons, Nat.add_comm data.length, ← Nat.add_assoc]
    exact ih (h.store d)

theorem Sweeps.cells {n : Nat} (h : Sweeps p n chip) (data : List UInt8) : chip.cells data =
    (List.range' n data.length).map fun k => (k / 128 % p.pages, k % 128) := by
  induction data generalizing n chip with
  | nil => rfl
  | cons d data ih =>
    rw [Chip.cells, List.length_cons, List.range'_succ, List.map_cons, ih (h.store d), h.page, h.column]

theorem sweeps_aim : Sweeps p 0 (chip.aim p 0 0) where
  firstColumn := rfl
  lastColumn := rfl
  firstPage := rfl
  lastPage := rfl
  column := rfl
  page := (Nat.zero_mod _).symm

/-- As many bytes as a panel holds are kept at each place of it once. -/
theorem cells_aim {data : List UInt8} (whole : data.length = p.pages * 128) (page column : Nat) :
    ((chip.aim p 0 0).cells data).count (page, column) = if page < p.pages ∧ column < 128 then 1 else 0 := by
  have cells : (chip.aim p 0 0).cells data = (List.range (p.pages * 128)).map fun k => (k / 128, k % 128) := by
    rw [sweeps_aim.cells, whole, ← List.range_eq_range']
    apply List.map_congr_left
    intro k member
    have inside : k / 128 < p.pages := Nat.div_lt_of_lt_mul (Nat.mul_comm .. ▸ List.mem_range.mp member)
    rw [Nat.mod_eq_of_lt inside]
  have once : ((chip.aim p 0 0).cells data).Nodup := by
    rw [cells]
    refine List.Nodup.map ?_ List.nodup_range
    intro j k same
    obtain ⟨quotients, remainders⟩ := Prod.mk.inj same
    omega
  have member : (page, column) ∈ (chip.aim p 0 0).cells data ↔ page < p.pages ∧ column < 128 := by
    rw [cells, List.mem_map]
    simp only [List.mem_range, Prod.mk.injEq]
    constructor
    · rintro ⟨k, inside, rfl, rfl⟩
      omega
    · rintro ⟨hpage, hcolumn⟩
      exact ⟨128 * page + column, by omega, by omega, by omega⟩
  rw [once.count]
  exact if_congr member rfl rfl

end Chip

section Turns

/-- These transactions are asked for in turn, up to the first that is refused. -/
inductive Relays : List I2c.Transaction → List (Exchange (I2c.Controller ε)) → Except ε Unit → Prop
  | done : Relays [] [] (.ok ())
  | refused (t : I2c.Transaction) (later : List I2c.Transaction) (e : ε) :
      Relays (t :: later) [⟨t, .error e⟩] (.error e)
  | carried {t : I2c.Transaction} {later : List I2c.Transaction} {log : List (Exchange (I2c.Controller ε))}
      {result : Except ε Unit} (rest : Relays later log result) :
      Relays (t :: later) (⟨t, .ok ()⟩ :: log) result

variable {first second script : List I2c.Transaction} {log more : List (Exchange (I2c.Controller ε))}
  {result : Except ε Unit} {rig left : Rig ε}

theorem Relays.append (h : Relays first log (.ok ())) (h' : Relays second more result) :
    Relays (first ++ second) (log ++ more) result := by
  generalize fine : (.ok () : Except ε Unit) = outcome at h
  induction h with
  | done => exact h'
  | refused => cases fine
  | carried _ ih => exact .carried (ih fine)

theorem Relays.stop {e : ε} (h : Relays first log (.error e)) : Relays (first ++ second) log (.error e) := by
  generalize bad : (.error e : Except ε Unit) = outcome at h ⊢
  induction h with
  | done => cases bad
  | refused t later e => exact .refused t _ e
  | carried _ ih => exact .carried (ih bad)

theorem Relays.whole (h : Relays script log (.ok ())) : log = script.map (⟨·, .ok ()⟩) := by
  generalize fine : (.ok () : Except ε Unit) = outcome at h
  induction h with
  | done => rfl
  | refused => cases fine
  | carried _ ih => rw [List.map_cons, ← ih fine, ← fine]

private theorem refusal_of_error {t : I2c.Transaction} {e : ε}
    (reply : panelBus habits t rig = .ok (.error e) left) : rig.refusals.get 0 = some e := by
  change rig.refusals.head = some e
  unfold panelBus at reply
  split at reply
  next refusal =>
    cases reply
    exact refusal
  next => cases reply

private theorem refusals_of_ok {t : I2c.Transaction} (reply : panelBus habits t rig = .ok (.ok ()) left) :
    rig.refusals.get 0 = none ∧ left.refusals = rig.refusals.tail := by
  change rig.refusals.head = none ∧ _
  unfold panelBus at reply
  split at reply
  next => cases reply
  next accepted =>
    cases reply
    exact ⟨accepted, rfl⟩

/-- What is refused first is the last that is asked for. -/
theorem Relays.refused_at (h : Relays script log result) (answered : (panelBus habits).Answers rig log left)
    {n : Nat} {e : ε} (inside : n < script.length) (early : ∀ i < n, rig.refusals.get i = none)
    (refusal : rig.refusals.get n = some e) : result = .error e ∧
      log = (script.take n).map (⟨·, .ok ()⟩) ++ [⟨script[n], .error e⟩] := by
  induction h generalizing rig n with
  | done => cases inside
  | refused t later e' =>
    obtain ⟨mid, reply, -⟩ := answers_cons.mp answered
    have first := refusal_of_error reply
    cases n with
    | zero =>
      cases first.symm.trans refusal
      exact ⟨rfl, rfl⟩
    | succ n => cases first.symm.trans (early 0 (Nat.succ_pos n))
  | carried rest ih =>
    obtain ⟨mid, reply, later⟩ := answers_cons.mp answered
    obtain ⟨first, same⟩ := refusals_of_ok reply
    cases n with
    | zero => cases first.symm.trans refusal
    | succ n =>
      obtain ⟨rfl, rfl⟩ := ih later (Nat.lt_of_succ_lt_succ inside)
        (fun i below => by rw [same]; exact early (i + 1) (Nat.succ_lt_succ below))
        (by rw [same]; exact refusal)
      exact ⟨rfl, rfl⟩

/-- All is asked for where nothing of it is refused. -/
theorem Relays.fine (h : Relays script log result) (answered : (panelBus habits).Answers rig log left)
    (never : ∀ i < script.length, rig.refusals.get i = none) : result = .ok () := by
  induction h generalizing rig with
  | done => rfl
  | refused t later e =>
    obtain ⟨mid, reply, -⟩ := answers_cons.mp answered
    cases (refusal_of_error reply).symm.trans (never 0 (Nat.succ_pos _))
  | carried rest ih =>
    obtain ⟨mid, reply, later⟩ := answers_cons.mp answered
    obtain ⟨-, same⟩ := refusals_of_ok reply
    apply ih later
    intro i below
    rw [same]
    exact never (i + 1) (Nat.succ_lt_succ below)

/-- The session asks for these transactions. -/
def Asks (s : Session ε Unit) (script : List I2c.Transaction) : Prop :=
  ∀ log result, Follows s.run log result → Relays script log result

/-- A write to the controller whose parts are these. -/
def asking (parts : List (List UInt8)) : I2c.Transaction := ⟨busAddress, parts.map .write⟩

variable {s s' : Session ε Unit}

theorem asks_nothing : Asks (pure () : Session ε Unit) [] := by
  intro log result h
  obtain ⟨rfl, rfl⟩ := follows_done.mp h
  exact .done

theorem asks_transfer (parts : List (List UInt8)) : Asks (transfer parts : Session ε Unit) [asking parts] := by
  intro log result h
  obtain rfl := follows_call.mp h
  cases result with
  | error e => exact .refused _ _ e
  | ok _ => exact .carried .done

theorem Asks.andThen (h : Asks s first) (h' : Asks s' second) : Asks (s >>= fun _ => s') (first ++ second) := by
  intro log result course
  rcases follows_session_bind.mp course with ⟨e, rfl, failed⟩ | ⟨_, before, after, rfl, here, there⟩
  · exact (h _ _ failed).stop
  · exact (h _ _ here).append (h' _ _ there)

theorem asks_forM {α : Type} {list : List α} {body : α → Session ε Unit} {each : α → List I2c.Transaction}
    (h : ∀ x ∈ list, Asks (body x) (each x)) : Asks (list.forM body) (list.flatMap each) := by
  induction list with
  | nil => exact asks_nothing
  | cons x list ih =>
    obtain ⟨here, later⟩ := List.forall_mem_cons.mp h
    exact here.andThen (ih later)

end Turns

section Fills

variable (p : Panel) (d : UInt8)

/-- What fills a panel: the mode and the ranges, and then as many pages as it has. -/
def filling : List I2c.Transaction :=
  [asking [[0x00], [0x20, 0]], asking [[0x00], [0x21, 0, 127]], asking [[0x00], [0x22, 0, p.lastPage]]] ++
    List.replicate p.pages (asking [0x40 :: List.replicate 128 d])

theorem asks_fill : Asks (p.fill d : Session ε Unit) (filling p d) := by
  have pages : Asks (ε := ε) ((List.range p.pages).forM fun _ => writeRun d columns)
      ((List.range p.pages).flatMap fun _ => [asking [0x40 :: List.replicate 128 d]]) :=
    asks_forM fun _ _ => asks_transfer _
  rw [← List.map_eq_flatMap, List.map_const', List.length_range] at pages
  exact (asks_transfer _).andThen ((asks_transfer _).andThen ((asks_transfer _).andThen pages))

theorem filling_written : (filling p d).map I2c.Transaction.written =
    aiming p 0 0 ++ drawing (List.replicate p.pages (List.replicate 128 d)) := by
  rw [filling, List.map_append, List.map_replicate, drawing, List.map_replicate]
  rfl

theorem sends_fill : Sends (p.fill d : Session ε Unit)
    (aiming p 0 0 ++ drawing (List.replicate p.pages (List.replicate 128 d))) := by
  have pages : Sends (ε := ε) ((List.range p.pages).forM fun _ => writeRun d columns)
      ((List.range p.pages).flatMap fun _ => [0x40 :: List.replicate 128 d]) :=
    sends_forM fun _ _ => sends_writeRun d columns
  rw [← List.map_eq_flatMap, List.map_const', List.length_range] at pages
  rw [drawing, List.map_replicate]
  exact (sends_transfer _).andThen ((sends_transfer _).andThen ((sends_transfer _).andThen pages))

/-- What has become of a controller, and what it wrote meanwhile, by page and column: every place of the
panel was written once and holds the byte, and the rest is as it was. -/
structure Filled (p : Panel) (d : UInt8) (written : List (Nat × Nat)) (before after : Chip) : Prop where
  once : ∀ page column, written.count (page, column) = if page < p.pages ∧ column < 128 then 1 else 0
  bytes : ∀ page column, after.memory page column =
    if page < p.pages ∧ column < 128 then d else before.memory page column
  column : after.column = 0
  page : after.page = 0

theorem filled (habits : Chip.Habits) (strays : Chip.Strays) (chip : Chip) :
    let script := aiming p 0 0 ++ drawing (List.replicate p.pages (List.replicate 128 d))
    Filled p d (chip.writes habits strays script) chip (script.foldl (Chip.obey habits) chip) := by
  intro script
  let data := List.replicate (p.pages * 128) d
  have whole : data.length = p.pages * 128 := List.length_replicate
  have flat : (List.replicate p.pages (List.replicate 128 d)).flatten = data :=
    List.flatten_replicate_replicate
  have aimed : (aiming p 0 0).foldl (Chip.obey habits) chip = chip.aim p 0 0 :=
    obey_aiming (by decide) p.pages_pos
  have obeyed : script.foldl (Chip.obey habits) chip = data.foldl Chip.store (chip.aim p 0 0) := by
    rw [List.foldl_append, aimed, drawing, Chip.obey_all rfl, flat]
  have writes : chip.writes habits strays script = (chip.aim p 0 0).cells data :=
    calc chip.writes habits strays script
        = ((aiming p 0 0).foldl (Chip.obey habits) chip).writes habits strays
            (drawing (List.replicate p.pages (List.replicate 128 d))) := rfl
      _ = (chip.aim p 0 0).cells data := by rw [aimed, Chip.writes_drawing strays rfl, flat]
  have swept : (data.foldl Chip.store (chip.aim p 0 0)).Sweeps p (0 + data.length) :=
    Chip.sweeps_aim.stored data
  rw [obeyed, writes]
  refine ⟨Chip.cells_aim whole, ?_, ?_, ?_⟩
  · intro page column
    have kept : (page, column) ∈ (chip.aim p 0 0).cells data ↔ page < p.pages ∧ column < 128 := by
      rw [← List.count_pos_iff, Chip.cells_aim whole]
      split <;> simp [*]
    rw [Chip.memory_uniform]
    exact if_congr kept rfl rfl
  · rw [swept.column, whole, Nat.zero_add, Nat.mul_mod_left]
  · rw [swept.page, whole, Nat.zero_add, Nat.mul_div_cancel _ (by decide), Nat.mod_self]

/-- A fill writes every byte of its panel once, whatever the controller was at, and leaves the pointer where
it was at first. The first refusal ends it. -/
theorem fill_covers (habits : Chip.Habits) (strays : Chip.Strays) (rig : Rig ε) : ∃ result left log,
    Ends (panelBus habits).recorded (p.fill d).run (rig, []) (.ok result (left, log)) ∧
      ((∀ n < p.pages + 3, rig.refusals.get n = none) → result = .ok ()) ∧
      (result = .ok () →
        Filled p d (rig.chip.writes habits strays (log.map (·.request.written))) rig.chip left.chip) ∧
      ∀ n (inside : n < (filling p d).length) e, (∀ i < n, rig.refusals.get i = none) →
        rig.refusals.get n = some e → result = .error e ∧
          log = ((filling p d).take n).map (⟨·, .ok ()⟩) ++ [⟨(filling p d)[n], .error e⟩] := by
  obtain ⟨result, left, delivers, ends⟩ := sends_fill p d habits rig
  obtain ⟨log, course, answered⟩ := ends.course
  have relays := asks_fill p d log result course
  have length : (filling p d).length = p.pages + 3 := by
    rw [filling, List.length_append, List.length_replicate, Nat.add_comm]
    rfl
  refine ⟨result, left, log, course.ends_recorded answered, ?_, ?_, ?_⟩
  · intro never
    exact relays.fine answered (length ▸ never)
  · rintro rfl
    rw [relays.whole, List.map_map]
    change Filled p d (rig.chip.writes habits strays ((filling p d).map I2c.Transaction.written)) _ _
    rw [filling_written, delivers.obeyed]
    exact filled p d habits strays rig.chip
  · intro n inside e early refusal
    exact relays.refused_at answered inside early refusal

end Fills

end BoardSupport.Oled

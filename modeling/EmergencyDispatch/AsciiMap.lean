import EmergencyDispatch.PositionsDump
import EmergencyDispatch.Library.Doubles
import EmergencyDispatch.Library.CharBuffers
import EmergencyDispatch.Library.Cells

/-!
# The final positions as a picture (`json_visualizer_positions_dump`)

The map is drawn with at most `POS_MAX_WIDTH` columns.  A position is scaled with
the arithmetic of doubles and kept inside the canvas, so nothing is ever drawn out
of it; the sides that the configuration accepts are at most 1024, so no `int`
overflows.  The bases are drawn first, then the emergencies that are active, then those
that `pq_map` finds in `completed_emergencies` and `canceled_emergencies`.  What a
cell shows at the end depends only on how many bases and emergencies are there; an
`X` for a base with an emergency does not outlast a second emergency.
-/

namespace EmergencyDispatch

open Doubles CharBuffers Cells

/-! ## The canvas -/

def POS_MAX_WIDTH : ℤ := 70

def POS_RESCUER_CHAR : Char := 'R'

def POS_EMERGENCY_CHAR : Char := 'E'

def POS_MAP_BORDER_CHAR : Char := '#'

/-- `clampi`. -/
def clampi (v lo hi : ℤ) : ℤ := if v < lo then lo else if hi < v then hi else v

/-- `ascii_canvas_t`. -/
structure AsciiCanvas where
  grid : List Char
  width : ℤ
  height : ℤ
  scale : ℚ

namespace AsciiCanvas

/-- `(int)floor((double)X * scale + 0.5)`. -/
def scaled (scale : ℚ) (X : ℤ) : ℤ := ⌊toDouble (toDouble (X * scale) + 1 / 2)⌋

/-- `canvas_scale_x`. -/
def canvasScaleX (ac : AsciiCanvas) (X : ℤ) : ℤ := clampi (scaled ac.scale X) 0 (ac.width - 1)

/-- `canvas_scale_y`. -/
def canvasScaleY (ac : AsciiCanvas) (Y : ℤ) : ℤ := clampi (scaled ac.scale Y) 0 (ac.height - 1)

/-- `canvas_clear`, on the cells that `malloc` has returned. -/
def canvasClear (ac : AsciiCanvas) (ch : Char) : AsciiCanvas :=
  { ac with grid := List.replicate (ac.width * ac.height).toNat ch }

/-- What `canvas_plot` leaves in a cell. -/
def plotChar (prev ch : Char) : Char :=
  if prev = ' ' ∨ prev = ch then ch
  else if (prev = POS_RESCUER_CHAR ∧ ch = POS_EMERGENCY_CHAR) ∨
      (prev = POS_EMERGENCY_CHAR ∧ ch = POS_RESCUER_CHAR) then 'X'
  else ch

/-- `canvas_plot`. -/
def canvasPlot (ac : AsciiCanvas) (sx sy : ℤ) (ch : Char) : Except MemoryFault AsciiCanvas :=
  let idx := sy * ac.width + sx
  if idx < 0 then .error .outOfBounds
  else
    match ac.grid[idx.toNat]? with
    | some prev => .ok { ac with grid := ac.grid.set idx.toNat (plotChar prev ch) }
    | none => .error .outOfBounds

/-- A position is scaled and plotted. -/
def plotAt (ch : Char) (ac : AsciiCanvas) (x y : ℤ) : Except MemoryFault AsciiCanvas :=
  ac.canvasPlot (ac.canvasScaleX x) (ac.canvasScaleY y) ch

/-- `canvas_plot_rescuer_bases`. -/
def canvasPlotRescuerBases (types : List RescuerType) (ac : AsciiCanvas) :
    Except MemoryFault AsciiCanvas :=
  types.foldlM (fun ac rtype => ac.plotAt POS_RESCUER_CHAR rtype.x rtype.y) ac

/-- `canvas_plot_emergency_cb`. -/
def canvasPlotEmergencyCb (w : World) (ac : AsciiCanvas) (e : EmergencyId) :
    Except MemoryFault AsciiCanvas :=
  ac.plotAt POS_EMERGENCY_CHAR (w.emergencies e).x (w.emergencies e).y

/-- `canvas_plot_active_emergencies`. -/
def canvasPlotActiveEmergencies (w : World) (ac : AsciiCanvas) : Except MemoryFault AsciiCanvas :=
  (List.finRange WORKER_THREADS_NUMBER).foldlM (fun ac i =>
    match w.active i with
    | some e => canvasPlotEmergencyCb w ac e
    | none => .ok ac) ac

/-- `ascii_write_with_borders`. -/
def asciiWriteWithBorders (ac : AsciiCanvas) : CString :=
  let border := List.replicate (ac.width + 2).toNat POS_MAP_BORDER_CHAR ++ ['\n']
  let row y := POS_MAP_BORDER_CHAR :: ((ac.grid.drop (y * ac.width.toNat)).take ac.width.toNat ++
    [POS_MAP_BORDER_CHAR, '\n'])
  border ++ ((List.range ac.height.toNat).flatMap row ++ border)

end AsciiCanvas

/-- The canvas of `json_visualizer_positions_dump` for a map. -/
def canvasOf (size : MapSize) : AsciiCanvas :=
  let width := if POS_MAX_WIDTH < size.width then POS_MAX_WIDTH else size.width
  let width := if width ≤ 0 then 1 else width
  let scale := toDouble (width / size.width)
  let height := AsciiCanvas.scaled scale size.height
  { grid := []
    width := width
    height := if height ≤ 0 then 1 else height
    scale := scale }

/-- `pq_map` with a callback that may leave the canvas. -/
def Pq.mapM {β ε : Type*} (q : Pq) (fn : β → EmergencyId → Except ε β) (init : β) : Except ε β :=
  q.contents.foldlM fn init

/-- What `json_visualizer_positions_dump` writes to the file for text. -/
def positionsTxt (cfg : Config) (s : State) : Except MemoryFault CString := do
  if cfg.size.width ≤ 0 ∨ cfg.size.height ≤ 0 then
    return "(no map size available)\n".toList
  let canvas := (canvasOf cfg.size).canvasClear ' '
  let canvas ← canvas.canvasPlotRescuerBases cfg.rescuers
  let canvas ← canvas.canvasPlotActiveEmergencies s.world
  let canvas ← s.completedEmergencies.mapM (AsciiCanvas.canvasPlotEmergencyCb s.world) canvas
  let canvas ← s.canceledEmergencies.mapM (AsciiCanvas.canvasPlotEmergencyCb s.world) canvas
  return canvas.asciiWriteWithBorders

/-! ## The picture it should be -/

/-- What a cell shows, from the numbers of bases and of emergencies that are there. -/
def cellChar (bases emergencies : ℕ) : Char :=
  if emergencies = 0 then if bases = 0 then ' ' else POS_RESCUER_CHAR
  else if emergencies = 1 ∧ bases ≠ 0 then 'X' else POS_EMERGENCY_CHAR

/-- The emergencies in the slots of the workers. -/
def World.activeEmergencies (w : World) : List EmergencyId :=
  (List.finRange WORKER_THREADS_NUMBER).filterMap w.active

/-- The emergencies that are drawn. -/
def State.drawn (s : State) : List EmergencyId := s.world.activeEmergencies ++ s.positioned

/-- The column of a position. -/
def MapSize.column (size : MapSize) (x : ℤ) : ℕ := ((canvasOf size).canvasScaleX x).toNat

/-- The row of a position. -/
def MapSize.row (size : MapSize) (y : ℤ) : ℕ := ((canvasOf size).canvasScaleY y).toNat

/-- The cell in a column and a row. -/
def pictureCell (cfg : Config) (s : State) (column row : ℕ) : Char :=
  cellChar
    (cfg.rescuers.countP fun r => cfg.size.column r.x = column ∧ cfg.size.row r.y = row)
    (s.drawn.countP fun e => cfg.size.column (s.world.emergencies e).x = column ∧
      cfg.size.row (s.world.emergencies e).y = row)

/-- The picture between its borders. -/
def pictureText (cfg : Config) (s : State) : CString :=
  let width := (canvasOf cfg.size).width.toNat
  let border := List.replicate (width + 2) POS_MAP_BORDER_CHAR ++ ['\n']
  let line row := POS_MAP_BORDER_CHAR ::
    ((List.range width).map (fun column => pictureCell cfg s column row) ++
      [POS_MAP_BORDER_CHAR, '\n'])
  border ++ ((List.range (canvasOf cfg.size).height.toNat).flatMap line ++ border)

/-! ## Plotting -/

theorem clampi_bounds {v hi : ℤ} (h : 0 ≤ hi) : 0 ≤ clampi v 0 hi ∧ clampi v 0 hi ≤ hi := by
  unfold clampi
  split_ifs <;> omega

/-- The canvas has its cells. -/
structure AsciiCanvas.WellSized (ac : AsciiCanvas) : Prop where
  width : 0 < ac.width
  height : 0 < ac.height
  cells : ac.grid.length = ac.width.toNat * ac.height.toNat

/-- What is plotted: a position and the character for it. -/
structure Plot where
  x : ℤ
  y : ℤ
  ch : Char

/-- The cell of a plot. -/
def AsciiCanvas.cellOf (ac : AsciiCanvas) (p : Plot) : ℕ :=
  (ac.canvasScaleY p.y).toNat * ac.width.toNat + (ac.canvasScaleX p.x).toNat

/-- The plots one after the other. -/
def AsciiCanvas.plotAll (ac : AsciiCanvas) (plots : List Plot) : Except MemoryFault AsciiCanvas :=
  plots.foldlM (fun ac p => ac.plotAt p.ch p.x p.y) ac

variable {ac : AsciiCanvas} {cfg : Config} {s : State}

theorem AsciiCanvas.WellSized.column_lt (h : ac.WellSized) (x : ℤ) :
    (ac.canvasScaleX x).toNat < ac.width.toNat := by
  have hbounds : 0 ≤ ac.canvasScaleX x ∧ ac.canvasScaleX x ≤ ac.width - 1 :=
    clampi_bounds (Int.le_sub_one_of_lt h.width)
  omega

theorem AsciiCanvas.WellSized.row_lt (h : ac.WellSized) (y : ℤ) :
    (ac.canvasScaleY y).toNat < ac.height.toNat := by
  have hbounds : 0 ≤ ac.canvasScaleY y ∧ ac.canvasScaleY y ≤ ac.height - 1 :=
    clampi_bounds (Int.le_sub_one_of_lt h.height)
  omega

theorem AsciiCanvas.WellSized.cellOf_lt (h : ac.WellSized) (p : Plot) :
    ac.cellOf p < ac.grid.length := by
  rw [h.cells, cellOf, Nat.mul_comm]
  calc
    ac.width.toNat * (ac.canvasScaleY p.y).toNat + (ac.canvasScaleX p.x).toNat
        < ac.width.toNat * (ac.canvasScaleY p.y).toNat + ac.width.toNat :=
          Nat.add_lt_add_left (h.column_lt p.x) _
    _ = ac.width.toNat * ((ac.canvasScaleY p.y).toNat + 1) := (Nat.mul_succ _ _).symm
    _ ≤ ac.width.toNat * ac.height.toNat := Nat.mul_le_mul_left _ (h.row_lt p.y)

theorem plotAt_eq (h : ac.WellSized) (p : Plot) : ac.plotAt p.ch p.x p.y = .ok { ac with
    grid := ac.grid.modify (ac.cellOf p) fun prev => AsciiCanvas.plotChar prev p.ch } := by
  have hx : 0 ≤ ac.canvasScaleX p.x := (clampi_bounds (Int.le_sub_one_of_lt h.width)).1
  have hy : 0 ≤ ac.canvasScaleY p.y := (clampi_bounds (Int.le_sub_one_of_lt h.height)).1
  have hidx : 0 ≤ ac.canvasScaleY p.y * ac.width + ac.canvasScaleX p.x :=
    add_nonneg (mul_nonneg hy h.width.le) hx
  have hcell : (ac.canvasScaleY p.y * ac.width + ac.canvasScaleX p.x).toNat = ac.cellOf p := by
    rw [AsciiCanvas.cellOf, Int.toNat_add (mul_nonneg hy h.width.le) hx,
      Int.toNat_mul hy h.width.le]
  have hprev := List.getElem?_eq_getElem (h.cellOf_lt p)
  simp only [AsciiCanvas.plotAt, AsciiCanvas.canvasPlot]
  rw [if_neg (not_lt.mpr hidx), hcell, hprev, List.modify_eq_set_getElem?, hprev]
  rfl

theorem plotAll_eq (h : ac.WellSized) (plots : List Plot) : ac.plotAll plots = .ok { ac with
    grid := update ac.cellOf (fun prev p => AsciiCanvas.plotChar prev p.ch) plots ac.grid } := by
  induction plots generalizing ac with
  | nil => rfl
  | cons p plots ih =>
      have hnext : AsciiCanvas.WellSized { ac with
          grid := ac.grid.modify (ac.cellOf p) fun prev => AsciiCanvas.plotChar prev p.ch } :=
        ⟨h.width, h.height, by rw [List.length_modify]; exact h.cells⟩
      rw [AsciiCanvas.plotAll, List.foldlM_cons, plotAt_eq h p]
      exact ih hnext

/-! ## What `json_visualizer_positions_dump` plots -/

def basePlot (r : RescuerType) : Plot := ⟨r.x, r.y, POS_RESCUER_CHAR⟩

def emergencyPlot (w : World) (e : EmergencyId) : Plot :=
  ⟨(w.emergencies e).x, (w.emergencies e).y, POS_EMERGENCY_CHAR⟩

theorem plotAll_append (ac : AsciiCanvas) (plots more : List Plot) :
    ac.plotAll (plots ++ more) = ac.plotAll plots >>= fun ac => ac.plotAll more :=
  List.foldlM_append

theorem canvasPlotRescuerBases_eq (types : List RescuerType) (ac : AsciiCanvas) :
    ac.canvasPlotRescuerBases types = ac.plotAll (types.map basePlot) := by
  rw [AsciiCanvas.plotAll, List.foldlM_map]
  rfl

theorem foldlM_canvasPlotEmergencyCb (w : World) (items : List EmergencyId) (ac : AsciiCanvas) :
    items.foldlM (AsciiCanvas.canvasPlotEmergencyCb w) ac =
      ac.plotAll (items.map (emergencyPlot w)) := by
  rw [AsciiCanvas.plotAll, List.foldlM_map]
  rfl

theorem canvasPlotActiveEmergencies_eq (w : World) (ac : AsciiCanvas) :
    ac.canvasPlotActiveEmergencies w =
      ac.plotAll (w.activeEmergencies.map (emergencyPlot w)) := by
  rw [← foldlM_canvasPlotEmergencyCb, World.activeEmergencies, List.foldlM_filterMap]
  unfold AsciiCanvas.canvasPlotActiveEmergencies
  congr
  funext ac i
  cases w.active i <;> rfl

/-- All the plots of the picture. -/
def allPlots (cfg : Config) (s : State) : List Plot :=
  cfg.rescuers.map basePlot ++ s.drawn.map (emergencyPlot s.world)

theorem positionsTxt_plotAll (hsize : 0 < cfg.size.width ∧ 0 < cfg.size.height) (s : State) :
    positionsTxt cfg s = ((canvasOf cfg.size).canvasClear ' ').plotAll (allPlots cfg s) >>=
      fun ac => .ok ac.asciiWriteWithBorders := by
  have hno : ¬(cfg.size.width ≤ 0 ∨ cfg.size.height ≤ 0) := by omega
  rw [positionsTxt, if_neg hno, allPlots, State.drawn, State.positioned]
  simp only [List.map_append, plotAll_append, canvasPlotRescuerBases_eq,
    canvasPlotActiveEmergencies_eq, Pq.mapM, foldlM_canvasPlotEmergencyCb, bind_assoc]
  rfl

/-! ## What the cells show -/

theorem foldl_plotChar_bases (bases : ℕ) :
    (List.replicate bases POS_RESCUER_CHAR).foldl AsciiCanvas.plotChar ' ' =
      cellChar bases 0 := by
  induction bases with
  | zero => rfl
  | succ bases ih =>
      rw [List.replicate_succ', List.foldl_append, ih]
      cases bases <;> rfl

/-- Bases first, then emergencies. -/
theorem foldl_plotChar (bases emergencies : ℕ) :
    (List.replicate bases POS_RESCUER_CHAR ++ List.replicate emergencies
      POS_EMERGENCY_CHAR).foldl AsciiCanvas.plotChar ' ' = cellChar bases emergencies := by
  rw [List.foldl_append, foldl_plotChar_bases]
  induction emergencies with
  | zero => rfl
  | succ emergencies ih =>
      rw [List.replicate_succ', List.foldl_append, ih]
      -- the second emergency takes the place of the `X` that the first has made
      rcases emergencies with - | - | emergencies <;> cases bases <;> rfl

/-- The characters of the plots that satisfy a condition. -/
theorem foldl_plots {α : Type*} (items : List α) (plot : α → Plot) (ch : Char)
    (hch : ∀ a, (plot a).ch = ch) (here : Plot → Bool) (c : Char) :
    ((items.map plot).filter here).foldl (fun prev p => AsciiCanvas.plotChar prev p.ch) c =
      (List.replicate (items.countP fun a => here (plot a)) ch).foldl AsciiCanvas.plotChar c := by
  induction items generalizing c with
  | nil => rfl
  | cons a items ih =>
      rw [List.map_cons]
      by_cases hhere : here (plot a) = true
      · rw [List.filter_cons_of_pos hhere, List.countP_cons_of_pos (by simpa using hhere),
          List.replicate_succ, List.foldl_cons, List.foldl_cons, ih, hch]
      · rw [List.filter_cons_of_neg hhere, List.countP_cons_of_neg (by simpa using hhere), ih]

theorem canvasOf_wellSized (size : MapSize) : ((canvasOf size).canvasClear ' ').WellSized := by
  have hwidth : 0 < (canvasOf size).width := by
    unfold canvasOf
    simp only
    split_ifs <;> omega
  have hheight : 0 < (canvasOf size).height := by
    unfold canvasOf
    simp only
    split_ifs <;> omega
  refine ⟨hwidth, hheight, ?_⟩
  show (List.replicate _ _).length = _
  rw [List.length_replicate, Int.toNat_mul hwidth.le hheight.le]
  rfl

theorem cell_inj {width column column' row row' : ℕ} (hcolumn : column < width)
    (hcolumn' : column' < width) :
    row * width + column = row' * width + column' ↔ column = column' ∧ row = row' := by
  have hpos : 0 < width := Nat.zero_lt_of_lt hcolumn
  constructor
  · intro h
    have hmod := congrArg (· % width) h
    have hdiv := congrArg (· / width) h
    simp only [Nat.mul_add_mod', Nat.mod_eq_of_lt hcolumn, Nat.mod_eq_of_lt hcolumn'] at hmod
    rw [Nat.add_comm, Nat.add_comm (row' * width)] at hdiv
    simp only [Nat.add_mul_div_right _ _ hpos, Nat.div_eq_of_lt hcolumn,
      Nat.div_eq_of_lt hcolumn', Nat.zero_add] at hdiv
    exact ⟨hmod, hdiv⟩
  · rintro ⟨rfl, rfl⟩
    rfl

theorem getElem?_plots (cfg : Config) (s : State) {column row : ℕ}
    (hcolumn : column < (canvasOf cfg.size).width.toNat)
    (hrow : row < (canvasOf cfg.size).height.toNat) :
    (update ((canvasOf cfg.size).canvasClear ' ').cellOf
      (fun prev p => AsciiCanvas.plotChar prev p.ch) (allPlots cfg s)
      ((canvasOf cfg.size).canvasClear ' ').grid)[row * (canvasOf cfg.size).width.toNat + column]? =
        some (pictureCell cfg s column row) := by
  have hsized := canvasOf_wellSized cfg.size
  -- a plot hits this cell exactly when its column and its row are those of the cell
  have hindex : ∀ p : Plot, decide (((canvasOf cfg.size).canvasClear ' ').cellOf p =
      row * (canvasOf cfg.size).width.toNat + column) =
        decide (cfg.size.column p.x = column ∧ cfg.size.row p.y = row) :=
    fun p => decide_eq_decide.mpr (cell_inj (hsized.column_lt p.x) hcolumn)
  have hcell : row * (canvasOf cfg.size).width.toNat + column <
      ((canvasOf cfg.size).canvasClear ' ').grid.length := by
    rw [hsized.cells]
    calc
      row * (canvasOf cfg.size).width.toNat + column
          < row * (canvasOf cfg.size).width.toNat + (canvasOf cfg.size).width.toNat :=
            Nat.add_lt_add_left hcolumn _
      _ = (row + 1) * (canvasOf cfg.size).width.toNat := (Nat.succ_mul _ _).symm
      _ ≤ (canvasOf cfg.size).height.toNat * (canvasOf cfg.size).width.toNat :=
          Nat.mul_le_mul_right _ hrow
      _ = (canvasOf cfg.size).width.toNat * (canvasOf cfg.size).height.toNat := Nat.mul_comm _ _
  have hblank : ((canvasOf cfg.size).canvasClear ' ').grid[row *
      (canvasOf cfg.size).width.toNat + column]? = some ' ' := by
    rw [List.getElem?_eq_getElem hcell]
    exact congrArg some (List.getElem_replicate _)
  rw [getElem?_update, hblank, Option.map_some, allPlots]
  simp only [hindex]
  rw [List.filter_append, List.foldl_append,
    foldl_plots _ basePlot POS_RESCUER_CHAR fun _ => rfl,
    foldl_plots _ (emergencyPlot s.world) POS_EMERGENCY_CHAR fun _ => rfl, ← List.foldl_append,
    foldl_plotChar]
  rfl

/-- The lines of a grid are given by its cells. -/
theorem line_eq {grid : List Char} {width row : ℕ} {cell : ℕ → Char}
    (h : ∀ column < width, grid[row * width + column]? = some (cell column)) :
    (grid.drop (row * width)).take width = (List.range width).map cell := by
  apply List.ext_getElem?
  intro column
  rcases lt_or_ge column width with hlt | hge
  · rw [List.getElem?_take_of_lt hlt, List.getElem?_drop, h column hlt, List.getElem?_map,
      List.getElem?_range hlt, Option.map_some]
  · have hnone : (List.range width)[column]? = none := by
      rw [List.getElem?_eq_none_iff, List.length_range]
      exact hge
    rw [List.getElem?_take_eq_none hge, List.getElem?_map, hnone, Option.map_none]

/-- **The final positions are drawn.**  For a map with sides no plot falls out of the
canvas, and a cell shows how many of the bases and of the emergencies are there. -/
theorem positions_drawn (cfg : Config) (s : State)
    (hsize : 0 < cfg.size.width ∧ 0 < cfg.size.height) :
    positionsTxt cfg s = .ok (pictureText cfg s) := by
  rw [positionsTxt_plotAll hsize, plotAll_eq (canvasOf_wellSized cfg.size)]
  -- the lines are the only part that depends on the plots
  refine congrArg Except.ok ?_
  unfold AsciiCanvas.asciiWriteWithBorders pictureText
  have hwidth : ((canvasOf cfg.size).width + 2).toNat = (canvasOf cfg.size).width.toNat + 2 := by
    have hpos := (canvasOf_wellSized cfg.size).width
    exact Int.toNat_add hpos.le (by decide)
  have hlines : ∀ row ∈ List.range (canvasOf cfg.size).height.toNat, _ :=
    fun row hrow => line_eq fun column hcolumn =>
      getElem?_plots cfg s hcolumn (List.mem_range.mp hrow)
  simp only [AsciiCanvas.canvasClear] at hlines ⊢
  rw [hwidth]
  congr 2
  apply List.flatMap_congr
  intro row hrow
  rw [hlines row hrow]

/-- The bases are in the corner; of the three emergencies the one that waits is not drawn. -/
theorem positions_drawn_three :
    let s := stateAfter exampleServer threeEndings
    pictureCell exampleServer s 0 0 = 'R' ∧ pictureCell exampleServer s 5 4 = 'E' ∧
      positionsTxt exampleServer s = .ok (pictureText exampleServer s) := by
  intro s
  exact ⟨by decide +kernel, by decide +kernel,
    positions_drawn exampleServer s (by decide)⟩

/-! ## Where the positions are drawn -/

/-- The place of a coordinate on the canvas, in units of its cells. -/
def MapSize.place (size : MapSize) (X : ℤ) : ℚ := X * ((canvasOf size).width / size.width)

variable {size : MapSize} {X : ℤ}

/-- The nearest cell of a row of `n` is the nearest integer, kept inside the row. -/
theorem clampi_nearest {v : ℚ} {k n c : ℤ} (hk : |(k : ℚ) - v| ≤ 1 / 2) (hc : 0 ≤ c)
    (hcn : c < n) : |(clampi k 0 (n - 1) : ℚ) - v| ≤ |(c : ℚ) - v| := by
  obtain ⟨hlow, hhigh⟩ := abs_le.mp hk
  unfold clampi
  split_ifs with hneg hbig
  · -- left of the row
    have hleft : (k : ℚ) ≤ -1 := by exact_mod_cast Int.le_sub_one_of_lt hneg
    have hcell : (0 : ℚ) ≤ c := by exact_mod_cast hc
    rw [Int.cast_zero, abs_of_nonneg (by linarith), abs_of_nonneg (by linarith)]
    linarith
  · -- right of the row
    have hright : (n : ℚ) ≤ k := by exact_mod_cast (by omega : n ≤ k)
    have hcell : (c : ℚ) ≤ n - 1 := by exact_mod_cast Int.le_sub_one_of_lt hcn
    rw [Int.cast_sub, Int.cast_one, abs_of_nonpos (by linarith), abs_of_nonpos (by linarith)]
    linarith
  · rcases lt_trichotomy c k with hlt | rfl | hlt
    · have hcell : (c : ℚ) ≤ k - 1 := by exact_mod_cast Int.le_sub_one_of_lt hlt
      rw [abs_of_nonpos (by linarith : (c : ℚ) - v ≤ 0)]
      linarith
    · exact le_rfl
    · have hcell : (k : ℚ) + 1 ≤ c := by exact_mod_cast hlt
      rw [abs_of_nonneg (by linarith : 0 ≤ (c : ℚ) - v)]
      linarith

theorem canvasOf_width (h : 0 < size.width) : (canvasOf size).width = min 70 size.width := by
  unfold canvasOf POS_MAX_WIDTH
  simp only
  split_ifs <;> omega

/-- The roundings of a coordinate change less than there is between two of the halves that a
place can lie next to, so the integer is still a nearest one. -/
theorem scaled_near (hwidth : 0 < size.width) (hmax : size.width ≤ MAX_X_COORDINATE_ABSOLUTE_VALUE)
    (hX : |X| ≤ 1024) : |(AsciiCanvas.scaled (canvasOf size).scale X : ℚ) - size.place X| ≤
      1 / 2 := by
  have hpos : (0 : ℚ) < size.width := by exact_mod_cast hwidth
  have hcanvas : ((canvasOf size).width : ℚ) ≤ size.width := by
    rw [canvasOf_width hwidth]
    exact_mod_cast min_le_right _ _
  have hcanvas0 : (0 : ℚ) ≤ (canvasOf size).width := by
    exact_mod_cast (canvasOf_wellSized size).width.le
  have hratio : |((canvasOf size).width / size.width : ℚ)| ≤ 1 := by
    rw [abs_of_nonneg (div_nonneg hcanvas0 hpos.le)]
    exact (div_le_one hpos).mpr hcanvas
  have hXbound : |(X : ℚ)| ≤ 1024 := by exact_mod_cast hX
  -- the scale
  have hscale : |(canvasOf size).scale - (canvasOf size).width / size.width| ≤ 1 / 2 ^ 53 := by
    have h := abs_toDouble_sub_le ((canvasOf size).width / size.width)
    exact h.trans (div_le_div_of_nonneg_right hratio (by positivity))
  -- the product, before and after it is rounded
  have hproduct : |X * (canvasOf size).scale - size.place X| ≤ 1024 * (1 / 2 ^ 53) := by
    rw [MapSize.place, ← mul_sub, abs_mul]
    exact mul_le_mul hXbound hscale (abs_nonneg _) (by norm_num)
  have hplace : |size.place X| ≤ 1024 := by
    rw [MapSize.place, abs_mul]
    calc
      |(X : ℚ)| * |((canvasOf size).width / size.width : ℚ)| ≤ 1024 * 1 :=
        mul_le_mul hXbound hratio (abs_nonneg _) (by norm_num)
      _ = 1024 := mul_one _
  have hrounded := abs_toDouble_sub_le_of_near hproduct hplace
  -- the sum
  have hsum : |toDouble (X * (canvasOf size).scale) + 1 / 2 - (size.place X + 1 / 2)| ≤
      1024 * (1 / 2 ^ 53) + (1024 + 1024 * (1 / 2 ^ 53)) / 2 ^ 53 := by
    rw [add_sub_add_right_eq_sub]
    exact hrounded
  have hshifted : |size.place X + 1 / 2| ≤ 1025 := by
    calc
      |size.place X + 1 / 2| ≤ |size.place X| + |1 / 2| := abs_add_le _ _
      _ ≤ 1024 + 1 := add_le_add hplace (by norm_num)
      _ = 1025 := by norm_num
  have hnear := abs_toDouble_sub_le_of_near hsum hshifted
  obtain ⟨d, hd⟩ := Int.eq_ofNat_of_zero_le hwidth.le
  have hfraction : size.place X + 1 / 2 =
      ((2 * X * (canvasOf size).width + d : ℤ) : ℚ) / (2 * d : ℕ) := by
    rw [MapSize.place]
    have hd0 : (size.width : ℚ) = d := by exact_mod_cast hd
    rw [hd0] at hpos ⊢
    push_cast
    field_simp
  have hsmall : (1 : ℚ) / 2048 ≤ 1 / (2 * d : ℕ) := by
    have hdmax : d ≤ 1024 := by
      unfold MAX_X_COORDINATE_ABSOLUTE_VALUE at hmax
      omega
    apply one_div_le_one_div_of_le
    · exact_mod_cast (by omega : 0 < 2 * d)
    · exact_mod_cast (by omega : 2 * d ≤ 2048)
  obtain ⟨hlow, hhigh⟩ := floor_near (by omega) hfraction
    (lt_of_lt_of_le (lt_of_le_of_lt hnear (by norm_num)) hsmall)
  rw [AsciiCanvas.scaled, abs_le]
  constructor <;> linarith

/-- **Positions are drawn in the nearest cells.**  On a map that the configuration may have no
cell of the canvas is nearer to the place of a position. -/
theorem drawn_in_nearest_cell (size : MapSize) (hwidth : 0 < size.width)
    (hmax : size.width ≤ MAX_X_COORDINATE_ABSOLUTE_VALUE) {x y : ℤ}
    (hx : ABS x ≤ MAX_X_COORDINATE_ABSOLUTE_VALUE) (hy : ABS y ≤ MAX_Y_COORDINATE_ABSOLUTE_VALUE)
    {column row : ℕ} (hcolumn : column < (canvasOf size).width)
    (hrow : row < (canvasOf size).height) :
    |(size.column x : ℚ) - size.place x| ≤ |(column : ℚ) - size.place x| ∧
      |(size.row y : ℚ) - size.place y| ≤ |(row : ℚ) - size.place y| := by
  have hwidth₀ : 0 ≤ (canvasOf size).width - 1 :=
    Int.le_sub_one_of_lt (canvasOf_wellSized size).width
  have hheight₀ : 0 ≤ (canvasOf size).height - 1 :=
    Int.le_sub_one_of_lt (canvasOf_wellSized size).height
  have hABS : ∀ {X : ℤ}, ABS X ≤ 1024 → |X| ≤ 1024 := by
    intro X h
    unfold ABS at h
    rw [abs_le]
    split_ifs at h <;> omega
  have hcell : ∀ {v hi : ℤ}, 0 ≤ hi → (((clampi v 0 hi).toNat : ℕ) : ℚ) = (clampi v 0 hi : ℤ) :=
    fun h => by exact_mod_cast Int.toNat_of_nonneg (clampi_bounds h).1
  constructor
  · rw [MapSize.column, AsciiCanvas.canvasScaleX, hcell hwidth₀]
    exact_mod_cast clampi_nearest (scaled_near hwidth hmax (hABS hx))
      (Int.natCast_nonneg column) hcolumn
  · rw [MapSize.row, AsciiCanvas.canvasScaleY, hcell hheight₀]
    exact_mod_cast clampi_nearest (scaled_near hwidth hmax (hABS hy))
      (Int.natCast_nonneg row) hrow

/-- On a map of 100 columns the column 55 lies at 38.5 columns of the canvas. -/
theorem drawn_in_nearest_cell_middle : let size : MapSize := ⟨100, 40⟩
    |(size.column 55 : ℚ) - size.place 55| ≤ |((39 : ℕ) : ℚ) - size.place 55| ∧
      |(size.row 20 : ℚ) - size.place 20| ≤ |((14 : ℕ) : ℚ) - size.place 20| :=
  drawn_in_nearest_cell ⟨100, 40⟩ (by decide) (by decide) (by decide) (by decide)
    (by decide +kernel) (by decide +kernel)

end EmergencyDispatch

import GridRobot.Exchange
import GridRobot.Proofs.Json.Reader
import GridRobot.Proofs.World.Codec

/-!
# Worlds as JSON read back

JSON loses nothing of a world: whatever is written for a grid with a cell is read back as the same world
(`World.reads_record`). The piles are listed once for each cell and none is empty, so none of them is
passed over and none replaces another. A grid without cells is the only thing that cannot be read
(`World.hasCells_of_ofJson`).

The worlds that texts describe have cells, hence functions that hand worlds on as JSON answer as if they
handed on the worlds themselves.
-/

namespace GridRobot

open Json

/-! ### Parts of worlds -/

theorem Direction.reads_reader (d : Direction) : Reads reader d.toJson d := by
  apply reads_variant
  cases d <;> rfl

theorem Pose.reads_record (p : Pose) : Reads record.reader p.toJson p := by
  apply Record.reads_record (d := ⟨some p.cell.x, some p.cell.y, some p.facing⟩)
  · exact .cons rfl rfl (Field.reads_of (reads_word32 _) _) <|
      .cons rfl rfl (Field.reads_of (reads_word32 _) _) <|
      .cons rfl rfl (Field.reads_of (Direction.reads_reader _) _) (.nil _)
  · rfl

theorem Wall.reads_record (w : Wall) : Reads record.reader w.toJson w := by
  apply Record.reads_record (d := ⟨some w.cell.x, some w.cell.y, some w.side⟩)
  · exact .cons rfl rfl (Field.reads_of (reads_word32 _) _) <|
      .cons rfl rfl (Field.reads_of (reads_word32 _) _) <|
      .cons rfl rfl (Field.reads_of (Direction.reads_reader _) _) (.nil _)
  · rfl

theorem Pile.reads_record (p : Pile) : Reads record.reader p.toJson p := by
  apply Record.reads_record (d := ⟨some p.cell.x, some p.cell.y, some p.count⟩)
  · exact .cons rfl rfl (Field.reads_of (reads_word32 _) _) <|
      .cons rfl rfl (Field.reads_of (reads_word32 _) _) <|
      .cons rfl rfl (Field.reads_of (reads_word32 _) _) (.nil _)
  · rfl

theorem Bag.reads_reader (b : Bag) : Reads reader b.toJson b := by
  intro rest hrest
  unfold reader
  cases b with
  | finite n =>
      obtain ⟨hstarts, hskip⟩ := startsNumber_word n rest
      have hnumber : ofNumber (.natural n.toNat) = .ok (finite n) := by
        rw [ofNumber, if_pos n.toNat_lt_size, UInt32.ofNat_toNat]
      simp only [toJson, hskip, hstarts, if_true, number?_word n hrest]
      show (ofNumber (.natural n.toNat) >>= fun b => .ok (b, rest)) = _
      rw [hnumber]
      rfl
  | unbounded =>
      have hskip : skipSpace ((str "infinity").render ++ rest) = (str "infinity").render ++ rest := by
        rw [render_str]
        rfl
      have hstarts : startsNumber ((str "infinity").render ++ rest) = false := by
        rw [render_str]
        rfl
      have hquote : ((str "infinity").render ++ rest).head? = some '"' := by
        rw [render_str, List.head?_cons]
      have hword : ofWord "infinity".toList = .ok unbounded := rfl
      simp only [toJson, hskip, hstarts, hquote, if_true, quotedString_quote]
      show (ofWord "infinity".toList >>= fun b => .ok (b, rest)) = _
      rw [hword]
      rfl

theorem Layout.ofPiles_piles (l : Layout) : ofPiles l.piles = l := by
  have hall : l.piles.filter (·.count ≠ 0) = l.piles := by
    rw [List.filter_eq_self]
    intro p hp
    exact decide_eq_true (l.positive p hp)
  rw [ofPiles, hall, foldl_set_piles]

namespace World

theorem reads_dimension {n : UInt32} (hn : n ≠ 0) : Reads dimension (word n) n := by
  intro rest hrest
  rw [dimension, reads_word32 n rest hrest]
  exact if_neg hn

theorem reads_beepersReader (ps : List Pile) : Reads beepersReader (arr (ps.map Pile.toJson)) (.ofPiles ps) := by
  intro rest hrest
  rw [beepersReader, reads_list Pile.reads_record ps rest hrest]
  rfl

/-! ### Worlds -/

theorem hasCells_iff {w : World} : w.HasCells ↔ w.width ≠ 0 ∧ w.height ≠ 0 :=
  and_congr (Declaration.one_le_iff_ne_zero _) (Declaration.one_le_iff_ne_zero _)

/-- The JSON form of a world, but with a list of piles for its beepers. -/
def toJsonWith (w : World) (ps : List Pile) : Json :=
  .obj [("width", .word w.width), ("height", .word w.height), ("walls", .arr (w.walls.map Wall.toJson)),
    ("beepers", .arr (ps.map Pile.toJson)), ("agent", w.agent.toJson), ("bag", w.bag.toJson)]

theorem reads_toJsonWith {w : World} (hw : w.HasCells) (ps : List Pile) :
    Reads record.reader (w.toJsonWith ps) { w with beepers := .ofPiles ps } := by
  obtain ⟨hwidth, hheight⟩ := hasCells_iff.1 hw
  apply Record.reads_record
    (d := ⟨some w.width, some w.height, some w.walls, some (.ofPiles ps), some w.agent, some w.bag⟩)
  · exact .cons rfl rfl (Field.reads_of (reads_dimension hwidth) _) <|
      .cons rfl rfl (Field.reads_of (reads_dimension hheight) _) <|
      .cons rfl rfl (Field.reads_of (reads_list Wall.reads_record _) _) <|
      .cons rfl rfl (Field.reads_of (reads_beepersReader _) _) <|
      .cons rfl rfl (Field.reads_of (Pose.reads_record _) _) <|
      .cons rfl rfl (Field.reads_of (Bag.reads_reader _) _) (.nil _)
  · rfl

theorem reads_record {w : World} (hw : w.HasCells) : Reads record.reader w.toJson w := by
  have hreads := reads_toJsonWith hw w.beepers.piles
  rwa [Layout.ofPiles_piles] at hreads

theorem ofJson_toJson {w : World} (hw : w.HasCells) : ofJson w.toJson.compact = .ok w :=
  decode_compact (reads_record hw)

theorem ensures_dimension : Ensures dimension (· ≠ 0) := by
  intro t n rest hread
  unfold dimension at hread
  obtain ⟨⟨m, t'⟩, -, hread⟩ := bind_eq_ok hread
  dsimp only at hread
  split at hread
  · cases hread
  · next hm =>
      cases hread
      exact hm

/-- What a draft keeps while a world is read: a side that is set is not zero. -/
def Draft.HasCells (d : Draft) : Prop := d.width ≠ some 0 ∧ d.height ≠ some 0

theorem ensures_fields : ∀ f ∈ record.fields, ∀ d : Draft, d.HasCells → Ensures (f.read d) Draft.HasCells := by
  have hany : ∀ {α : Type} (reader : Reader α), Ensures reader fun _ => True := fun _ _ _ _ _ => trivial
  intro f hf d hd
  simp only [record, List.mem_cons, List.not_mem_nil, or_false] at hf
  rcases hf with rfl | rfl | rfl | rfl | rfl | rfl
  · exact Field.ensures_of ensures_dimension fun n hn => ⟨fun h => hn (Option.some.inj h), hd.2⟩
  · exact Field.ensures_of ensures_dimension fun n hn => ⟨hd.1, fun h => hn (Option.some.inj h)⟩
  all_goals exact Field.ensures_of (hany _) fun _ _ => hd

/-- No JSON text is read as a grid without cells. -/
theorem hasCells_of_ofJson {s : String} {w : World} (h : ofJson s = .ok w) : w.HasCells := by
  have hdraft : record.draft.HasCells := ⟨nofun, nofun⟩
  obtain ⟨d, ⟨hwidth, hheight⟩, hfinish⟩ := (Record.ensures_reader hdraft ensures_fields).decode h
  simp only [record, Option.bind_eq_bind, Option.bind_eq_some_iff] at hfinish
  obtain ⟨width, hwidth', height, hheight', walls, -, beepers, -, agent, -, bag, -, hw⟩ := hfinish
  cases hw
  rw [hwidth'] at hwidth
  rw [hheight'] at hheight
  exact hasCells_iff.2 ⟨fun h => hwidth (congrArg some h), fun h => hheight (congrArg some h)⟩

end World

/-! ### Worlds handed on as JSON -/

theorem Json.sortItems_eq_map (js : List Json) : sortItems js = js.map sortKeys := by
  induction js with
  | nil => rw [sortItems, List.map_nil]
  | cons j js ih => rw [sortItems, ih, List.map_cons]

namespace Exchange

theorem readWorld_parseWorld (what t : String) :
    readWorld what (parseWorld t).compact = .ok (World.parse t) := by
  have hread : World.ofJson (parseWorld t).compact = .ok (World.parse t) :=
    World.ofJson_toJson (World.hasCells_ofText _)
  rw [readWorld, hread]

theorem formatWorld_parseWorld (t : String) : formatWorld (parseWorld t).compact =
    .ok (.obj [("success", .bool true), ("text", .str (World.parse t).format)]) := by
  rw [formatWorld, readWorld_parseWorld]
  rfl

theorem goalReached_parseWorld (a b : String) :
    goalReached (parseWorld a).compact (parseWorld b).compact =
      .ok (.obj
        [("mismatches", .arr (((World.parse a).mismatches (.parse b)).map fun m => m.toJson.sortKeys)),
          ("reached", .bool ((World.parse a).reaches (.parse b))), ("success", .bool true)]) := by
  have hitems := sortItems_eq_map (((World.parse a).mismatches (.parse b)).map Mismatch.toJson)
  rw [List.map_map] at hitems
  rw [goalReached, readWorld_parseWorld, readWorld_parseWorld]
  show Except.ok (Json.obj [("mismatches", .arr (sortItems _)), _, _]) = _
  rw [hitems]
  rfl

end Exchange

/-- JSON carries worlds without loss: what is written for a world is read back as this world, exactly if
its grid has a cell. So a text of a world is formatted by way of JSON as it is without, and two such texts
are compared as they are without. -/
theorem World.json_lossless :
    (∀ w : World, ofJson w.toJson.compact = .ok w ↔ 1 ≤ w.width ∧ 1 ≤ w.height) ∧
    (∀ t, Exchange.formatWorld (Exchange.parseWorld t).compact =
      .ok (.obj [("success", .bool true), ("text", .str (parse t).format)])) ∧
    ∀ a b, Exchange.goalReached (Exchange.parseWorld a).compact (Exchange.parseWorld b).compact =
      .ok (.obj
        [("mismatches", .arr (((parse a).mismatches (parse b)).map fun m => m.toJson.sortKeys)),
          ("reached", .bool ((parse a).reaches (parse b))), ("success", .bool true)]) :=
  ⟨fun _ => ⟨hasCells_of_ofJson, ofJson_toJson⟩, Exchange.formatWorld_parseWorld,
    Exchange.goalReached_parseWorld⟩

end GridRobot

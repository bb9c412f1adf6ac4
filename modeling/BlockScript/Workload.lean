import BlockScript.Compile

/-!
Sample projects of any size, and runs that go through every part of the compiler with
them. Each run gives a short summary of what it made.
-/
namespace BlockScript.Workload

def ofLines (lines : List String) : String := String.join (lines.map (· ++ "\n"))

def rounds (statements : Int) (each : Nat) : Nat := max 1 (statements.fdiv each).toNat

def repeated (statements : Int) (lines : List String) : List String :=
  (List.replicate (rounds statements lines.length) lines).flatten

def spriteHead : List String :=
  ["#name \"BenchSprite\"",
    "#costume \"a.png\"",
    "#sound [\"s.wav\", \"t.wav\"]",
    "#visible true",
    "#x 10",
    "#y 20.5",
    "#size 80",
    "#direction 90",
    "#draggable false",
    "#rotationstyle \"all around\"",
    "#layer 2",
    "",
    "num function double(x) \x7b",
    "    return tonum(x) * 2;",
    "\x7d",
    "",
    "warp num function shout(msg, times) \x7b",
    "    say(msg);",
    "    return 0;",
    "\x7d",
    "",
    "str function greet() \x7b",
    "    return \"hi\";",
    "\x7d",
    "",
    "function noret() \x7b return; \x7d",
    "",
    "scratch.on_flag() \x7b",
    "    counter: num = 0;",
    "    label: str = \"hello\";",
    "    flag: bool = true;",
    "    anything: var;",
    "    items[] = [1, 2, 3, 4, 5];",
    "    const pi_ish: num = 3.14;",
    "    ch: str = label[0];",
    "    it: var = items[0];",
    "    dbl: num = double(3);",
    "    gr: str = greet();",
    "    b1: bool = not (counter < 5);",
    "    b2: bool = (counter > 0) and (counter < 100);",
    "    b3: bool = (counter == 1) or (counter != 2);",
    "    b4: bool = \"h\" in label;",
    "    b5: bool = 1 in items;",
    "    b6: bool = this.touching(C.MOUSE);",
    "    b7: bool = scratch.key_pressed(C.SPACE);",
    "    b8: bool = true and b1;",
    "    b9: bool = false or b1;",
    "    n1: num = -counter;",
    "    n2: num = (1 + 2) * 3 / 4 % 5 ** 2;",
    "    n3: num = this.x + this.y;",
    "    n4: num = math.round(3.7);",
    "    n5: num = math.sin(1);",
    "    n6: num = random.range(1, 10);",
    "    s1: str = tostr(counter);",
    "    s2: str = scratch.backdrop.name;",
    "    n7: num = scratch.backdrop.number;",
    "    n8: num = time.year;",
    "    n9: num = this.costume.number;",
    "    b10: bool = tobool(counter);",
    "    b11: bool = tobool(label);",
    "    b12: bool = tobool(items);",
    "    c1: bool = this.is_clone;"]

def spriteStatements : List String :=
  ["    counter = counter + 1;",
    "    label = label .. \"!\";",
    "    counter += 2;",
    "    counter -= 1;",
    "    counter *= 2;",
    "    counter /= 2;",
    "    counter %= 3;",
    "    counter **= 2;",
    "    label ..= \"?\";",
    "    this.x = 5;",
    "    this.x += 10;",
    "    this.size = 50;",
    "    items[0] = 9;",
    "    items[0] += 1;",
    "    shout(label, 2);",
    "    noret();",
    "    say(label);",
    "    say_for_seconds(\"hi\", 1);",
    "    move_steps(10);",
    "    set_pos(0, 0);",
    "    glide_to(\"_mouse_\", 1);",
    "    glide_to_pos(1, 2, 3);",
    "    go_to(\"_mouse_\");",
    "    point_towards(\"_mouse_\");",
    "    bounce_off_edge();",
    "    set_rotation_style(\"all around\");",
    "    think(1);",
    "    set_costume(\"a\");",
    "    next_costume();",
    "    switch_backdrop(\"b\");",
    "    next_backdrop();",
    "    change_effect(\"pitch\", 1);",
    "    change_effect(\"color\", 1);",
    "    set_effect(\"pan\", 1);",
    "    set_effect(\"ghost\", 1);",
    "    clear_graphic_effects();",
    "    show();",
    "    hide();",
    "    set_layer(\"front\");",
    "    change_layer(1);",
    "    play_sound(\"x\");",
    "    stop_all_sounds();",
    "    clear_sound_effects();",
    "    set_drag_mode(\"draggable\");",
    "    scratch.clone();",
    "    scratch.delete_clone();",
    "    scratch.stop(\"all\");",
    "    scratch.ask(\"q\");",
    "    scratch.broadcast(\"ping\");",
    "    scratch.broadcast_and_wait(\"ping\", \"msg\");",
    "    time.sleep(0);",
    "    time.reset_timer();",
    "    time.wait_until(true);",
    "    if (counter >= 10) \x7b say(1); \x7d",
    "    if (counter <= 0) say(\"low\"); else \x7b say(\"hi\"); \x7d",
    "    while (true) \x7b counter += 1; \x7d",
    "    while (counter < 3) \x7b counter += 1; \x7d",
    "    return;"]

def spriteTail : List String :=
  ["\x7d",
    "",
    "scratch.on_keypress(C.SPACE) \x7b move_steps(5); \x7d",
    "scratch.on_keyrelease(C.SPACE) \x7b move_steps(1); \x7d",
    "scratch.on_broadcast(\"ping\") \x7b say(1); \x7d",
    "scratch.on_broadcast(\"pong\", data) \x7b say(data); \x7d",
    "scratch.on_clicked() \x7b\x7d"]

def spriteSource (statements : Int) : String :=
  ofLines (spriteHead ++ repeated statements spriteStatements ++ spriteTail)

def stageStatements : List String :=
  ["    gv = gv + 1;",
    "    this.volume = 50;",
    "    switch_backdrop(\"bg\");"]

def stageSource (statements : Int) : String :=
  ofLines (["#costume \"bg.png\"", "scratch.on_flag() \x7b", "    gv: num = 0;"] ++
    repeated statements stageStatements ++ ["\x7d"])

def globalLine (i : Nat) : String :=
  let n := Decimal.writeInt i
  match i % 5 with
  | 0 => "gnum" ++ n ++ ": num = " ++ n ++ " + 1 * 2 - (3 / 4) % 5 ** 2;"
  | 1 => "gstr" ++ n ++ ": str = \"a\" .. \"b\";"
  | 2 => "gbool" ++ n ++ ": bool = (gnum0 < 10) and not (gnum0 == 0) or true;"
  | 3 => "glist" ++ n ++ "[] = [1, 2, 3, " ++ n ++ "];"
  | _ => "gvar" ++ n ++ ": var = gnum0;"

def setupSource (globals : Int) : String :=
  ofLines ("project \"Bench<Project>..\" as \"bench.sb3\";" ::
    (List.range globals.toNat).map globalLine)

def silent : Session := Session.fresh (some .error) true

/-- The kinds of the tokens of a sprite with about the given number of tokens. -/
def tokenKinds (tokens : Int) : List Terminal :=
  let s := silent.register "bench.sbs" (spriteSource (tokens.fdiv 4))
  (s.tokens .script).1.map fun t => t.kind

def parsed (file source : String) : Option Script :=
  ((silent.register file source).parseScript.1).toOption

def statementCounts (statements : Int) : List Nat :=
  let source := spriteSource statements
  ["bench.sbs", "again.sbs"].map fun file =>
    ((parsed file source).map fun script => script.statements.length).getD 0

/-- How many globals a setup has: as read, as built, and as listed by their names. -/
def globalCounts (globals : Int) : List Nat :=
  let step : Build (List Nat) := do
    modify fun s => { s with session := s.session.register "setup.sbc" (setupSource globals) }
    let setup ← Build.parseSetup
    Build.setup "bench" setup
    let d := (← get).draft
    return [setup.globals.length, d.project.stage.data.length, d.globals.length]
  match step.run (BuildState.fresh silent "bench") with
  | .ok counts _ => counts
  | .error _ _ => []

def folder (statements globals : Int) (sprites : List String) : FileTree :=
  FileTree.ofFiles
    ([("setup.sbc", setupSource globals), ("stage.sbs", stageSource statements), ("bg.png", ""),
      ("a.png", ""), ("s.wav", ""), ("t.wav", "")] ++
      sprites.map fun file => ("sprites/" ++ file, spriteSource statements))

def builtSprite (statements : Int) : Option (String × Nat) :=
  let place := Location.root "bench" (folder statements 0 [])
  let step : Build (String × Nat) := do
    modify fun s =>
      { s with session := s.session.register "sprites/bench.sbs" (spriteSource statements) }
    let script ← Build.parseScript
    let name ← Build.addSprite place script "bench.sbs"
    Build.project
    return (name, script.statements.length)
  match step.run (BuildState.fresh silent "bench") with
  | .ok result _ => some result
  | .error _ _ => none

/-- Builds a whole project, and gives its file name, how many globals and scripted
targets other than sprites it has, and the names of the sprites. -/
def builtProject (globals : Int) : Option (String × Nat × List String) :=
  let place := Location.root "bench" (folder 0 globals ["bench.sbs"])
  let step : Build (String × Nat × List String) := do
    Build.readSetup place
    Build.readStage place
    Build.readSprites place
    Build.project
    let filename ← Build.save none
    let d := (← get).draft
    return (filename, d.globals.length + d.stageStatements.length, Assoc.keys d.sprites)
  match step.run (BuildState.fresh silent "bench") with
  | .ok result _ => some result
  | .error _ _ => none

def number : Value := .data ⟨"n", false, .typed .ofNumber, false⟩

def nested : Value := .op .equals [.op .add [number, .int 2], number]

/-- Operations on blocks; what each builds is made of as many blocks as its operands
ask for. -/
def operations : List (Except Fault Value) :=
  [nested.pow (.int (-1)), nested.pow (.float 0.5), nested.pow (.int 1), nested.pow (.int 2),
    nested.compare .le nested, nested.compare .ge nested, nested.compare .ne nested,
    (nested.logicalAnd nested).logicalNot, (nested.logicalOr nested).logicalNot]

def sizeOf (result : Except Fault Value) : Nat :=
  match result with
  | .ok v => v.blockCount
  | .error _ => 0

/-- The number of blocks that the given number of operations build, taken in turn. -/
def blocksBuilt (count : Int) : Nat :=
  (List.range count.toNat).foldl (fun n i =>
    n + sizeOf ((operations[i % operations.length]?).getD (.error .outOfRange))) 0

/-- The results of one round of checks on types, sizes and file names. -/
structure Check where
  typeName : String
  type : Option DataType
  size : Nat
  literalSize : Nat
  filename : String
  newType : Option DataType

def checkedTypes : List TypeSet :=
  [.ofNumber, .ofString, .ofBoolean, .general, .ofList, .union .ofNumber .ofString,
    .union .ofNumber .ofList, .union .ofString .ofBoolean, .union .ofBoolean .ofList]

def checkedValues : List Value :=
  [.int 1, .float 2.5, .str "s", .bool true, .list [.int 1], .list [],
    .data ⟨"v", false, .typed .general, false⟩, .op .add [.int 1, .int 2]]

def checkedNames : List String := ["hello. ", "a<b>c", "plain", "x:y|z..."]

def typeOf (v : Value) : Option DataType := v.type?.toOption.getD none

def checkAt (i : Nat) : Check where
  typeName := ((checkedTypes[i % checkedTypes.length]?).map TypeSet.name).getD ""
  type := (checkedValues[i % checkedValues.length]?).bind typeOf
  size := nested.blockCount
  literalSize := (Value.int 15).depth.toOption.getD 0
  filename :=
    ((checkedNames[i % checkedNames.length]?).bind fun n => (Text.fileName n).toOption).getD ""
  newType := (number.retype .ofString).toOption.bind typeOf

def checks (count : Int) : List Check := (List.range count.toNat).map checkAt

inductive Ending
  | finished
  | stopped (text : String)
  | fault (f : Fault)

def endingOf {α : Type} (step : Build α) (s : BuildState) : Ending :=
  match step.run s with
  | .ok _ _ => .finished
  | .error (.diagnosed _ text) _ | .error (.exited text) _ => .stopped text
  | .error .unexplained _ | .error .usage _ => .stopped ""
  | .error (.fault f) _ => .fault f

def wrongScripts : List String :=
  ["x: num = \"open", "x = 1 $ 2;", "x: num = 1", "x: 5 = 1;", "x: = 1;", "#size", "#name 5",
    "scratch.on_flag() \x7b x = ; \x7d", "scratch.on_flag() \x7b x = 1 \x7d",
    "scratch.on_flag() \x7b say(1, ; \x7d", "scratch.on_flag() \x7b this.if = 1; \x7d",
    "scratch.on_flag() \x7b if = 1; \x7d"]

def wrongSetups : List String :=
  ["x: num = \"open", "x = 1 $ 2;", "x: num = 1", "x: 5 = 1;", "x: num = ;", "x: num = (1;"]

/-- Scripts that can be read, all but one of which cannot be built. -/
def wrongBuilds : List String :=
  ["scratch.on_flag() \x7b x = 1; \x7d", "scratch.on_flag() \x7b x: num = \"a\"; \x7d",
    "scratch.on_flag() \x7b nothing(); \x7d", "scratch.on_nothing() \x7b\x7d",
    "scratch.on_flag() \x7b x: num = 1; \x7d", "scratch.on_flag() \x7b say(nothing); \x7d"]

def plainState : BuildState := BuildState.fresh (Session.fresh (some .error) false) "bench"

def registered (file source : String) : BuildState :=
  { plainState with session := plainState.session.register file source }

/-- Reads a script as one file and builds it as another, which was never opened. -/
def buildUnopened : Build Unit := do
  let script ← Build.parseScript
  let _ ← Build.addSprite (Location.root "bench" (.folder [])) ⟨[], script.statements⟩ "e.sbs"
  Build.project

def stopWith (text : String) : Build Unit := do
  match ← Build.ofExcept ((← get).session.console.line? .error text) with
  | some line => throw (.exited line)
  | none => return ()

def endings : List Ending :=
  (wrongScripts.map fun source => endingOf Build.parseScript (registered "e.sbs" source)) ++
    (wrongSetups.map fun source => endingOf Build.parseSetup (registered "e.sbc" source)) ++
    (wrongBuilds.map fun source => endingOf buildUnopened (registered "e.sbs" source)) ++
    [endingOf (stopWith "boom") plainState,
      endingOf (Build.reject .expectedSemicolon : Build Unit) (registered "e.sbs" "x")]

def endingsFor (cases : Int) : List Ending :=
  (List.replicate (rounds cases endings.length) endings).flatten

def commandRuns (sprites : Int) : List Ending :=
  let files := (List.range sprites.toNat).map fun (i : Nat) =>
    "sprite" ++ Decimal.writeInt i ++ ".sbs"
  let place := Location.root "" (.folder [("bench", folder 0 4 files)])
  let lines := [["bench", "-log", "error"], ["bench", "out.sb3", "-log", "error", "-nocolor"]]
  lines.map fun arguments =>
    match (Run.compile place arguments).failure with
    | none => .finished
    | some (.diagnosed _ text) | some (.exited text) => .stopped text
    | some (.fault f) => .fault f
    | some _ => .stopped ""

end BlockScript.Workload

import ChipEight.Machine

namespace ChipEight.Machine

def skip (m : Machine) : Machine := { m with pc := m.pc + Instruction.size }

def skipIf (m : Machine) (b : Bool) : Machine := if b then m.skip else m

def jumpTo (m : Machine) (address : Int) : Machine := { m with pc := address, jumped := true }

def setRegister (m : Machine) (r : Register) (b : UInt8) : Machine :=
  { m with registers := m.registers.put r b }

def setFlag (m : Machine) (b : Bool) : Machine :=
  m.setRegister Register.flag (if b then 1 else 0)

/-- Stores a sum in Vx, then the carry in VF. -/
def storeSum (m : Machine) (x : Register) (a b : UInt8) : Machine :=
  (m.setRegister x (a + b)).setFlag (decide (256 ≤ a.toNat + b.toNat))

def storeDifference (m : Machine) (x : Register) (a b : UInt8) : Machine :=
  (m.setRegister x (a - b)).setFlag (decide (b ≤ a))

/-- Stores the lowest bit in VF, then the half in Vx. -/
def storeHalf (m : Machine) (x : Register) (b : UInt8) : Machine :=
  (m.setFlag (decide (b % 2 = 1))).setRegister x (b >>> 1)

def storeDouble (m : Machine) (x : Register) (b : UInt8) : Machine :=
  (m.setFlag (decide (128 ≤ b))).setRegister x (b <<< 1)

def returnFromCall (m : Machine) : Outcome :=
  match m.stack.pop with
  | .ok (address, stack) => .done ({ m with stack }.jumpTo address)
  | .error f => .failed m f

def callTo (m : Machine) (address : Int) : Outcome :=
  match m.stack.push (m.pc + Instruction.size) with
  | .ok stack => .done ({ m with stack }.jumpTo address)
  | .error f => .failed m f

/-- Draws the sprite at I with its upper left corner at a place, and stores in VF whether it erased
a pixel. -/
def drawSprite (m : Machine) (x y : UInt8) (count : Nat) : Outcome :=
  match m.memory.readSprite m.digitLimit m.index count with
  | .ok (some sprite, events) =>
    let (screen, erased) := m.screen.stamp x.toNat y.toNat sprite
    ⟨{ m with screen }.setFlag erased, none, events⟩
  | .ok (none, events) => ⟨m, some (.accessOutside (m.index + count)), events⟩
  | .error f => .failed m f

def skipIfKey (m : Machine) (key : UInt8) (down : Bool) : Outcome :=
  match Key.ofValue m.digitLimit key.toNat with
  | .ok k => .done (m.skipIf (m.keypad.isDown k == down))
  | .error f => .failed m f

def readDelay (m : Machine) (x : Register) : Outcome :=
  match m.registers.store m.digitLimit x m.delay with
  | .ok registers => .done { m with registers }
  | .error f => .failed m f

def decimalDigits (b : UInt8) : List UInt8 := [b / 100, b / 10 % 10, b % 10]

def storeDigits (m : Machine) (b : UInt8) : Outcome :=
  let last := m.index + 2
  if (m.memory.size : Int) ≤ last then .failed m (.accessOutside last)
  else .done { m with memory := m.memory.overlay m.index (decimalDigits b) }

/-- Stores registers, each at I plus its number. -/
def storeRegisters (m : Machine) : List Register → Outcome
  | [] => .done m
  | r :: rest =>
    let address := m.index + r.val
    if (m.memory.size : Int) ≤ address then .failed m (.accessOutside address)
    else
      match m.memory.put address m.registers[r] with
      | .ok memory => storeRegisters { m with memory } rest
      | .error f => .failed m f

def loadRegisters (m : Machine) : List Register → Outcome
  | [] => .done m
  | r :: rest =>
    let address := m.index + r.val
    if (m.memory.size : Int) ≤ address then .failed m (.accessOutside address)
    else
      match m.memory.get address with
      | .ok b => loadRegisters (m.setRegister r b) rest
      | .error f => .failed m f

/-- What an instruction does. The operands are read before anything is changed, and only the two
instructions that copy blocks of registers may fail after they have changed something. -/
def effect (m : Machine) : Instruction → Outcome
  | .sys _ => .done m
  | .cls => .done { m with screen := m.screen.clear }
  | .ret => m.returnFromCall
  | .jump a => .done (m.jumpTo a.val)
  | .call a => m.callTo a.val
  | .skipEqByte x b => .done (m.skipIf (m.registers[x] == b))
  | .skipNeByte x b => .done (m.skipIf (m.registers[x] != b))
  | .skipEq x y => .done (m.skipIf (m.registers[x] == m.registers[y]))
  | .setByte x b => .done (m.setRegister x b)
  | .addByte x b => .done (m.storeSum x m.registers[x] b)
  | .set x y => .done (m.setRegister x m.registers[y])
  | .or x y => .done (m.setRegister x (m.registers[x] ||| m.registers[y]))
  | .and x y => .done (m.setRegister x (m.registers[x] &&& m.registers[y]))
  | .xor x y => .done (m.setRegister x (m.registers[x] ^^^ m.registers[y]))
  | .add x y => .done (m.storeSum x m.registers[x] m.registers[y])
  | .sub x y => .done (m.storeDifference x m.registers[x] m.registers[y])
  | .shiftRight x y => .done (m.storeHalf x m.registers[y])
  | .subFrom x y => .done (m.storeDifference x m.registers[y] m.registers[x])
  | .shiftLeft x y => .done (m.storeDouble x m.registers[y])
  | .skipNe x y => .done (m.skipIf (m.registers[x] != m.registers[y]))
  | .setIndex a => .done { m with index := a.val }
  | .jumpOffset a => .done (m.jumpTo (a.val + m.registers[(0 : Register)].toNat))
  | .random x mask =>
    .done ({ m with draws := m.draws.advance }.setRegister x (m.draws.next &&& mask))
  | .draw x y n => m.drawSprite m.registers[x] m.registers[y] n.val
  | .skipDown x => m.skipIfKey m.registers[x] true
  | .skipUp x => m.skipIfKey m.registers[x] false
  | .readDelay x => m.readDelay x
  | .awaitKey x => .done { m with waiting := some x }
  | .setDelay x => .done { m with delay := m.registers[x].toNat }
  | .setSound x => .done { m with sound := m.registers[x].toNat }
  | .addIndex x => .done { m with index := m.index + m.registers[x].toNat }
  | .selectGlyph x => .done { m with index := Font.glyphAddress m.registers[x].toNat }
  | .storeDigits x => m.storeDigits m.registers[x]
  | .storeRegisters x => m.storeRegisters (Register.upTo x)
  | .loadRegisters x => m.loadRegisters (Register.upTo x)

def execute (m : Machine) (i : Instruction) : Outcome :=
  (m.effect i).after [.executed m.pc i]

theorem registers_setRegister (m : Machine) (r : Register) (b : UInt8) (q : Register) :
    (m.setRegister r b).registers[q] = if r = q then b else m.registers[q] :=
  RegisterFile.getElem_put m.registers r q b

theorem registers_setFlag (m : Machine) (b : Bool) (q : Register) :
    (m.setFlag b).registers[q] =
      if Register.flag = q then if b then 1 else 0 else m.registers[q] :=
  m.registers_setRegister Register.flag _ q

end ChipEight.Machine

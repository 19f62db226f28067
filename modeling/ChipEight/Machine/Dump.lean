import ChipEight.Machine

namespace ChipEight.Machine

def waitingText : Option Register → String
  | none => "None"
  | some r =>
    "WaitingOnKeyUp(register=<DataRegister." ++ r.name ++ ": " ++ Text.decimal r.val ++ ">)"

def dump (m : Machine) : String :=
  "PC_REGISTER:" ++ Text.address m.pc ++ " | IDX_REGISTER:" ++ Text.address m.index ++
    " | VARIABLE_REGISTERS:" ++ m.registers.text ++ "\nSTACK:" ++ m.stack.text ++
    "\nDT:" ++ Text.decimal m.delay ++ " | ST:" ++ Text.decimal m.sound ++
    "\nBLOCKED:" ++ waitingText m.waiting ++ " | " ++ m.keypad.text

end ChipEight.Machine

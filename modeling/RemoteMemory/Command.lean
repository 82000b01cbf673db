/-!
# Commands

The nine commands that peers exchange, with their wire codes and names. A code names at most one
command, and every other byte is unknown.
-/

namespace RemoteMemory

inductive Command where
  | ping
  | pong
  | alloc
  | free
  | realloc
  | write
  | read
  | ok
  | error
  deriving DecidableEq, Repr, Inhabited

namespace Command

def code : Command → UInt8
  | ping => 0x01
  | pong => 0x02
  | alloc => 0x10
  | free => 0x11
  | realloc => 0x12
  | write => 0x20
  | read => 0x21
  | ok => 0xF0
  | error => 0xFF

def name : Command → String
  | ping => "PING"
  | pong => "PONG"
  | alloc => "ALLOC"
  | free => "FREE"
  | realloc => "REALLOC"
  | write => "WRITE"
  | read => "READ"
  | ok => "OK"
  | error => "ERROR"

/-- Whether the size field of a header counts payload bytes. For ALLOC, READ and REALLOC it is the
number of bytes asked for, and no payload follows. -/
def sizeIsPayload : Command → Bool
  | alloc | read | realloc => false
  | _ => true

def all : List Command :=
  [ping, pong, alloc, free, realloc, write, read, ok, error]

def ofCode? (byte : UInt8) : Option Command :=
  all.find? fun command => command.code == byte

@[simp] theorem ofCode?_code (command : Command) : ofCode? command.code = some command := by
  cases command <;> rfl

theorem ofCode?_eq_some_iff {byte : UInt8} {command : Command} :
    ofCode? byte = some command ↔ command.code = byte := by
  constructor
  · intro h
    simpa using List.find?_some h
  · rintro rfl
    exact ofCode?_code command

end Command

end RemoteMemory

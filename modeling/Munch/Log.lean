import Munch.Text.Quoted
import Munch.Token

/-! The log: its records, the level of each, and results that come with the records written on the way to them. -/

namespace Munch

namespace Log

/-- How detailed a record is. -/
inductive Level where
  | error
  | warn
  | info
  | debug
  | trace
deriving DecidableEq, Repr

def Level.name : Level → Text
  | error => "ERROR".toList
  | warn => "WARN".toList
  | info => "INFO".toList
  | debug => "DEBUG".toList
  | trace => "TRACE".toList

/-- What is recorded: the start of the work on a source, each token as it is handed out, the number of tokens when all
    went well, that number again for the reader, and the time that the run took. -/
inductive Record where
  | tokenizing (file : Text) (chars : Nat)
  | dispatched (t : Token)
  | tokenized (count : Nat)
  | summary (count : Nat)
  | totalTime
deriving DecidableEq, Repr

namespace Record

def level : Record → Level
  | tokenizing _ _ => .debug
  | dispatched _ => .trace
  | tokenized _ => .debug
  | summary _ => .info
  | totalTime => .debug

/-- What a record says. The text of the time that has passed is not the record's own and is passed in. -/
def message (time : Text) : Record → Text
  | tokenizing file chars =>
    "tokenizing file=".toList ++ file ++ " chars=".toList ++ Text.decimal chars
  | dispatched t =>
    "dispatched token kind=".toList ++ t.kind.name ++ " span=".toList ++ t.span.render ++ " value=".toList
      ++ Text.quoted .unicode t.value
  | tokenized count => "tokenized count=".toList ++ Text.decimal count
  | summary count => "Tokenized ".toList ++ Text.decimal count ++ " tokens in ".toList ++ time
  | totalTime => "Total time: ".toList ++ time

/-- A record as a line: its level and what it says. -/
def line (time : Text) (r : Record) : Text := r.level.name ++ ' ' :: r.message time

end Record

end Log

/-- A result, and the records written on the way to it, in their order. -/
@[ext]
structure Logged (α : Type) where
  log : List Log.Record
  result : α

namespace Logged
variable {α β : Type}

instance : Monad Logged where
  pure a := ⟨[], a⟩
  bind x f :=
    let y := f x.result
    ⟨x.log ++ y.log, y.result⟩

/-- Writes a record. -/
def write (r : Log.Record) : Logged Unit := ⟨[r], ()⟩

@[simp] theorem log_pure (a : α) : (pure a : Logged α).log = [] := rfl

@[simp] theorem result_pure (a : α) : (pure a : Logged α).result = a := rfl

@[simp] theorem log_bind (x : Logged α) (f : α → Logged β) : (x >>= f).log = x.log ++ (f x.result).log := rfl

@[simp] theorem result_bind (x : Logged α) (f : α → Logged β) : (x >>= f).result = (f x.result).result := rfl

@[simp] theorem log_write (r : Log.Record) : (write r).log = [r] := rfl

@[simp] theorem result_write (r : Log.Record) : (write r).result = () := rfl

end Logged

end Munch

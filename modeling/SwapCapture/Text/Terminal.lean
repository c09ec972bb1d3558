/-
Text with the control sequences of a terminal in it.

A terminal shows most characters, but an escape character starts a sequence that only steers it.
How such a sequence goes on, and which character ends it, depends on the character behind the
escape.  Everywhere an escape character starts a new sequence and a cancel character ends the
present one.  Strings and commands swallow whatever stands in them, line feeds too, and so does the
head of a device string; a layout character in any other sequence breaks the sequence off and is
shown.

A terminal reads bytes.  A sequence swallows characters beyond ASCII and goes on behind them, but
a string ends at the byte `9C`, and that byte may be a part of such a character.

* `Terminal.Mode` — where in a sequence a terminal is;
* `Terminal.Mode.read` — the mode after one more character, and what that character shows;
* `Terminal.plain` — what a terminal shows of a text;
* `Terminal.emphasize` — a text between the sequences that turn emphasis on and off.
-/
namespace SwapCapture.Terminal

/-- Where a terminal is in the text that it reads. -/
inductive Mode where
  | text
  | escape
  /-- Behind an escape character and some punctuation, with one more character to come. -/
  | intermediate
  /-- In a sequence with parameters, which `[` starts and a letter ends. -/
  | parameters
  /-- At the head of a device string, which `P` starts, before anything else of it. -/
  | device
  /-- At the head of a device string, among its parameters. -/
  | deviceParameters
  /-- At the head of a device string, behind some punctuation. -/
  | deviceIntermediate
  /-- In a string, which lasts up to its terminator, an escape or a cancel character. -/
  | string
  /-- In a command for the terminal itself, which `]` starts and a bell ends as well. -/
  | command
deriving DecidableEq, Repr

def escape : Char := '\x1b'

/-- Whether `c` ends any sequence without being part of it. -/
def isCancel (c : Char) : Bool := c == '\x18' || c == '\x1a'

/-- Whether the control character `c` moves on in the text: the tab, the line and form feeds and the
carriage return. -/
def isLayout (c : Char) : Bool := c == '\t' || c == '\n' || c == '\x0c' || c == '\r'

/-- Whether the ASCII character `c` is a control character. -/
def isControl (c : Char) : Bool := c < ' ' || c == '\x7f'

/-- Whether `c` is shown outside of all sequences. -/
def isVisible (c : Char) : Bool := isLayout c || !isControl c

/-- Whether the byte `9C`, which ends a string, is one of the bytes of `c` behind the first.  Each
of these bytes holds six bits of the character, the last byte the lowest. -/
def holdsTerminator (c : Char) : Bool :=
  (List.range (c.utf8Size - 1)).any fun i => (c.toNat >>> (6 * i)) % 64 == 0x1c

namespace Mode

/-- The mode behind an escape character and `c`, which is no control character. -/
def afterEscape (c : Char) : Mode :=
  match c with
  | '[' => .parameters
  | ']' => .command
  | 'P' => .device
  | 'X' | '^' | '_' => .string
  | c => if c ≤ '/' then .intermediate else .text

/-- The mode after `c`, which is no control character, in a sequence that it is part of.  A device
string starts behind a letter, and one whose head is out of order starts at once. -/
def advance (mode : Mode) (c : Char) : Mode :=
  match mode with
  | .escape => afterEscape c
  | .intermediate => if c ≤ '/' then .intermediate else .text
  | .parameters => if c ≤ '?' then .parameters else .text
  | .device =>
    if c ≤ '/' then .deviceIntermediate else if c ≤ '?' then .deviceParameters else .string
  | .deviceParameters =>
    if c ≤ '/' then .deviceIntermediate else if c ≤ ';' then .deviceParameters else .string
  | .deviceIntermediate => if c ≤ '/' then .deviceIntermediate else .string
  | mode => mode

/-- What an ASCII character does that neither starts nor cancels a sequence, outside of which only
what `isVisible` is shown. -/
def readAscii (mode : Mode) (c : Char) : Mode × List Char :=
  match mode with
  | .text => (.text, if isVisible c then [c] else [])
  | .command => (if c = '\x07' then .text else .command, [])
  | .escape | .intermediate | .parameters =>
    if isLayout c then (.text, [c])
    else if isControl c then (mode, [])
    else (mode.advance c, [])
  | mode => (if isControl c then mode else mode.advance c, [])

def readWide (mode : Mode) (c : Char) : Mode × List Char :=
  match mode with
  | .text => (.text, [c])
  | .string => (if holdsTerminator c then .text else .string, [])
  | mode => (mode, [])

def read (mode : Mode) (c : Char) : Mode × List Char :=
  if c = Terminal.escape then (.escape, [])
  else if isCancel c then (.text, [])
  else if c.toNat < 128 then mode.readAscii c
  else mode.readWide c

end Mode

/-- What a terminal in some `Mode` shows of a text. -/
def shown : Mode → List Char → List Char
  | _, [] => []
  | mode, c :: rest => (mode.read c).2 ++ shown (mode.read c).1 rest

/-- What a terminal shows of `text`: the text without its control sequences and without the control
characters that move nothing. -/
def plain (text : String) : String := String.ofList (shown .text text.toList)

def emphasize (text : String) : String := "\x1b[1m" ++ text ++ "\x1b[0m"

end SwapCapture.Terminal

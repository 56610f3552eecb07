import M68k.Blank
import M68k.Bus.Activity

/-!
# Bus patterns

Bus programs can be written down as text: blank-separated tokens such as `n np nr nW+ nw`, a list of
addresses that are bound in order to the tokens that need one, and a width for the operand
transfers.

| token        | activity                                                          |
|--------------|-------------------------------------------------------------------|
| `n`, `nn`    | idle for 4 / 8 half-cycles                                        |
| `r`          | idle for a length chosen at run time                              |
| `np`         | program fetch                                                     |
| `nF`, `nf`   | stack pointer high / low from the source address                  |
| `nV`, `nv`   | program counter high / low from the source address                |
| `nR`, `nr`   | read source latch high / low from a bound address                 |
| `nRd`, `nrd` | read destination latch high / low from a bound address            |
| `nW`, `nw`   | write destination latch high / low to a bound address             |
| `nS`, `ns`   | write destination latch at the destination address, which drops   |
| `nU`, `nu`   | read source latch at the source address, which rises              |
| `_`          | hold the reset output                                             |
| `tas`        | write a held byte back to a bound address                         |
| `i`          | interrupt acknowledge                                             |

A trailing `+` or `-` on a read or write of an operand adjusts the effective address of its side
after the transfer.

## Main definitions

* `Token`, `Token.ofWord`: tokens and their spelling
* `PatternError`: why a text is no pattern, with the first word that is at fault
* `parsePattern`: the program that a pattern stands for
-/

namespace M68k

/-- Why a text is no pattern. -/
inductive PatternError
  | unknownToken (word : String)
  | unexpectedAdjustment (word : String)
  | missingAddress (word : String)
deriving DecidableEq, Repr

/-- The wording of a pattern error. -/
def PatternError.message : PatternError → String
  | unknownToken word => "unknown bus-step token \x60" ++ word ++ "\x60"
  | unexpectedAdjustment word =>
    "bus-step token \x60" ++ word ++ "\x60 does not take an address adjustment"
  | missingAddress word =>
    "bus-step token \x60" ++ word ++ "\x60 needs an address but none are left to bind"

/-- A token of a pattern. -/
inductive Token
  | idle (duration : HalfCycles)
  | flexible
  | fetch
  | fetchStackPointer (half : Half)
  | fetchVector (half : Half)
  | read (side : Side) (half : Half)
  | write (half : Half)
  | stackWrite (half : Half)
  | stackRead (half : Half)
  | resetHold
  | testAndSet
  | interruptAcknowledge
deriving DecidableEq, Repr

namespace Token

/-- The token with a given spelling. -/
def ofSpelling? : List Char → Option Token
  | ['n'] => some (idle 4)
  | ['n', 'n'] => some (idle 8)
  | ['r'] => some flexible
  | ['n', 'p'] => some fetch
  | ['n', 'F'] => some (fetchStackPointer .high)
  | ['n', 'f'] => some (fetchStackPointer .low)
  | ['n', 'V'] => some (fetchVector .high)
  | ['n', 'v'] => some (fetchVector .low)
  | ['n', 'R'] => some (read .source .high)
  | ['n', 'r'] => some (read .source .low)
  | ['n', 'R', 'd'] => some (read .destination .high)
  | ['n', 'r', 'd'] => some (read .destination .low)
  | ['n', 'W'] => some (write .high)
  | ['n', 'w'] => some (write .low)
  | ['n', 'S'] => some (stackWrite .high)
  | ['n', 's'] => some (stackWrite .low)
  | ['n', 'U'] => some (stackRead .high)
  | ['n', 'u'] => some (stackRead .low)
  | ['_'] => some resetHold
  | ['t', 'a', 's'] => some testAndSet
  | ['i'] => some interruptAcknowledge
  | _ => none

/-- The token moves operand data, after which an effective address may be adjusted. -/
def isAdjustable : Token → Bool
  | read .. | write _ => true
  | _ => false

/-- The token binds an address. -/
def takesAddress : Token → Bool
  | read .. | write _ | testAndSet => true
  | _ => false

/-- A word without its trailing adjustment sign, and that adjustment. -/
def splitAdjustment (word : List Char) : List Char × Option Adjustment :=
  match word.getLast? with
  | some '+' => (word.dropLast, some .increment)
  | some '-' => (word.dropLast, some .decrement)
  | _ => (word, none)

/-- The token and the adjustment that a word spells. -/
def ofWord (word : List Char) : Except PatternError (Token × Option Adjustment) :=
  let (spelling, adjustment) := splitAdjustment word
  match ofSpelling? spelling with
  | none => .error (.unknownToken (String.ofList word))
  | some token =>
    if adjustment.isSome && !token.isAdjustable then
      .error (.unexpectedAdjustment (String.ofList word))
    else .ok (token, adjustment)

/-- The activity that a token stands for, at an address that only tokens which bind one look at. -/
def activity (token : Token) (adjustment : Option Adjustment) (width : Width)
    (address : AddressSource) : Activity :=
  match token with
  | idle duration => .idle duration
  | flexible => .flexible
  | fetch => .fetch
  | fetchStackPointer half => .fetchStackPointer half
  | fetchVector half => .fetchVector half
  | read side half => .read side half adjustment width address
  | write half => .write half adjustment width address
  | stackWrite half => .stackWrite half
  | stackRead half => .stackRead half
  | resetHold => .resetHold
  | testAndSet => .testAndSet address
  | interruptAcknowledge => .interruptAcknowledge

end Token

/-- The activity of the words of a pattern, read from the left. The first word at fault stops the
reading. -/
def activityOfWords (width : Width) :
    List (List Char) → List AddressSource → Except PatternError Activity
  | [], _ => .ok []
  | word :: words, addresses =>
    match Token.ofWord word with
    | .error error => .error error
    | .ok (token, adjustment) =>
      if token.takesAddress then
        match addresses with
        | [] => .error (.missingAddress (String.ofList word))
        | address :: addresses =>
          (activityOfWords width words addresses).map
            (token.activity adjustment width address ++ ·)
      else
        (activityOfWords width words addresses).map (token.activity adjustment width .none ++ ·)

/-- The program that `pattern` stands for. -/
def parsePattern (pattern : String) (addresses : List AddressSource) (width : Width) :
    Except PatternError (List BusStep) :=
  (activityOfWords width (blankSeparated pattern.toList) addresses).map Activity.toProgram

end M68k

import Playground.Text.Utf8

/-!
# Built-in programs

Four programs that can be run without a file, and the texts by which the playground introduces itself.
-/

namespace Playground

/-- The playground's name. -/
def hostName : String := "LoLa Playground"

/-- The playground's version. -/
def hostVersion : String := "0.3.0"

/-- The first words on the console. -/
def greeting : String := "Your program output will appear here!\n"

/-- A named program. -/
structure Sample where
  name : String
  source : String
  deriving DecidableEq, Repr

namespace Sample

/-- Greets, then echoes what is typed. -/
def helloWorld : Sample where
  name := "Hello, World!"
  source := "// Enter LoLa code here and run it to compile & execute the code!
Print(\"Hello, World!\");
while(true) \x7b
  var str = Read();
  if(str != \"\")
    Write(\"[\", str, \"]\");
\x7d

// Available functions are:
// - All of the standard library
// - \"Print(…): void\" Prints all arguments, then writes a new line
// - \"Write(…): void\" Prints all arguments without appending a new line
// - \"Read(): string\" Reads all available text from the terminal.
"

/-- Sorts numbers, then words. -/
def bubblesort : Sample where
  name := "Bubblesort"
  source := "function BubbleSort(const_arr)
\x7b
  var arr = const_arr;
  var len = Length(arr);

  var n = len;
  while(n > 1) \x7b

    var i = 0;
    while(i < n - 1) \x7b
      if (arr[i] > arr[i+1]) \x7b
        var tmp = arr[i];
        arr[i] = arr[i+1];
        arr[i+1] = tmp;
      \x7d

      i += 1;
    \x7d
    n -= 1;
  \x7d

  return arr;
\x7d

// Sorting works on numbers
Print(BubbleSort([ 7, 8, 9, 3, 2, 1 ]));

// as well as strings
Print(BubbleSort([
  \"scorn\",
  \"by nature\",
  \"Agave cantala\",
  \"solvophobic\",
  \"outpost\",
  \"ovotestis\",
  \"weather\",
  \"ablation\",
  \"boresighting\",
  \"postfix\"
]));
"

/-- Prints the time for ever. -/
def simpleTimer : Sample where
  name := "Simple Timer"
  source := "while(true) \x7b
  Print(Timestamp());
  Yield();
\x7d
"

/-- Panics three calls deep. -/
def stackTrace : Sample where
  name := "Stack Trace"
  source := "function Nested() \x7b
    Boom();
\x7d

function Deeply() \x7b
    Nested();
\x7d

function Within() \x7b
    Deeply();
\x7d

Within();
"

/-- The catalog, in the order in which it is listed. -/
def all : List Sample := [helloWorld, bubblesort, simpleTimer, stackTrace]

/-- The sample at a place in the catalog. -/
def find? (index : Nat) : Option Sample := all[index]?

/-- The sample with a name, without regard to the case of ASCII letters. -/
def findByName? (name : String) : Option Sample :=
  all.find? fun s => s.name.map Char.toLower == name.map Char.toLower

end Sample

end Playground

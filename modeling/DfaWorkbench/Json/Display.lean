import DfaWorkbench.Json.Printer
import DfaWorkbench.Text.Quoted

/-!
Values as messages show them: words with a capital, and strings in the quoted form.
-/

namespace DfaWorkbench.Json

def messageForm : Decimal.Form where
  nan := "nan"
  infinity := "inf"

mutual

/-- Whole numbers are shown in full, however many digits they have. -/
def display : Json → String
  | null => "None"
  | bool true => "True"
  | bool false => "False"
  | num (.int n) => String.ofList (intText n)
  | num (.float x) => messageForm.text x
  | str s => Text.quoted s
  | arr xs => "[" ++ ", ".intercalate (displayItems xs) ++ "]"
  | obj fs => "\x7b" ++ ", ".intercalate (displayFields fs) ++ "\x7d"

def displayItems : List Json → List String
  | [] => []
  | x :: xs => display x :: displayItems xs

def displayFields : List (String × Json) → List String
  | [] => []
  | (k, x) :: fs => (Text.quoted k ++ ": " ++ display x) :: displayFields fs

end

def displayGroup (xs : List Json) : String :=
  "(" ++ ", ".intercalate (displayItems xs) ++ (if xs.length = 1 then ",)" else ")")

def plainText : Json → String
  | str s => s
  | v => display v

end DfaWorkbench.Json

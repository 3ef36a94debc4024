import PocketBasic.Library.Store

/-!
# Built-in programs

The programs that a new library starts with.
-/

namespace PocketBasic.Library

def programOf (name description : String) (lines : List String) : Draft :=
  ⟨name, description, String.join (lines.map (· ++ "\n"))⟩

def builtinPrograms : List Draft := [
  programOf "KEYDEMO" "Shows the code of every key you press."
    ["Disp \"Press a key...\"", "Lbl A", "Repeat Ans", "getKey->X", "End",
     "Disp \"You pressed: \", X", "Goto A"],
  programOf "ARROWS" "Moves an arrow marker with the left and right keys."
    ["ClrHome", "1->C", "Lbl L", "Output(4,C,\"<>\")", "Repeat K", "getKey->K", "End",
     "Output(4,C,\"  \")", "If K=24 and C>1", "C-1->C", "If K=26 and C<15", "C+1->C", "0->K",
     "Goto L"],
  programOf "GUESS" "Guess a number between 1 and 100."
    ["ClrHome", "random(1,101)->R", "R-R%1->R", "0->T", "Lbl G", "Input \"GUESS?\",G", "T+1->T",
     "If G=R", "Goto W", "If G<R", "Disp \"HIGHER\"", "If G>R", "Disp \"LOWER\"", "Goto G",
     "Lbl W", "Disp \"CORRECT!\"", "Disp \"TRIES:\",T"],
  programOf "MENUDEMO" "A small menu that branches to labels."
    ["Lbl M", "Menu(\"MAIN MENU\",\"HELLO\",1,\"COUNT\",2,\"QUIT\",3)", "Lbl 1", "ClrHome",
     "Disp \"HELLO WORLD\"", "Pause", "Goto M", "Lbl 2", "ClrHome", "For(I,1,5)", "Disp I", "End",
     "Pause", "Goto M", "Lbl 3", "ClrHome", "Disp \"BYE\""],
  programOf "AREA" "Area and circumference of a circle."
    ["Prompt R", "Disp \"AREA\",Pi*R*R", "Disp \"PERIMETER\",2*Pi*R"]]

end PocketBasic.Library

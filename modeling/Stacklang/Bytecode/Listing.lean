import Stacklang.Bytecode
import Stacklang.Code.Listing
import Stacklang.Text.Quoted

namespace Stacklang

def Constant.describe : Constant → String
  | integer value => "INTEGER   " ++ Text.integer value
  | string text => "STRING    " ++ Text.quoted text
  | function template => "FUNCTION  " ++ Text.padded 1 template.code.size ++ " bytes"

namespace Bytecode

def headingRule : String :=
  "════════════════════════════════════════\n"

def heading (label measure : String) : String :=
  headingRule ++ " " ++ label ++ "\n " ++ measure ++ "\n" ++ headingRule

def streamListing (label : String) (code : Code) : String :=
  heading label (Text.padded 1 code.size ++ " bytes") ++ code.annotatedListing ++ "\n"

def constantLine (position : Nat × Constant) : String :=
  Text.offset position.1 ++ "   " ++ position.2.describe ++ "\n"

def functionListing : Nat × Constant → String
  | (index, .function template) =>
      streamListing
        ("fn const[" ++ Text.padded 1 index ++ "] (" ++ Text.padded 1 template.parameters ++
          " params, " ++ Text.padded 1 template.locals ++ " locals)")
        template.code
  | _ => ""

def numbered (bytecode : Bytecode) : List (Nat × Constant) :=
  bytecode.constants.toList.mapIdx Prod.mk

def listing (bytecode : Bytecode) : String :=
  "=== BYTECODE PROGRAM ===\n\n" ++ streamListing "main" bytecode.code ++
    (if bytecode.constants.isEmpty then ""
      else
        heading "constants" (Text.padded 1 bytecode.constants.size ++ " entries") ++
          String.join (bytecode.numbered.map constantLine) ++ "\n") ++
    String.join (bytecode.numbered.map functionListing)

end Bytecode

end Stacklang

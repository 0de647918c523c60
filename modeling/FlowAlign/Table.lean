/-! Tables: entries with keys, in the order in which the keys first occur. -/

namespace FlowAlign.Table

variable {κ β : Type} [BEq κ]

/-- Value of a key; of several the last one counts. -/
def find? (entries : List (κ × β)) (key : κ) : Option β :=
  entries.reverse.lookup key

def keys (entries : List (κ × β)) : List κ :=
  (entries.map Prod.fst).eraseDups

/-- Every key once, at the place of its first entry and with the value of its last one. -/
def collect (entries : List (κ × β)) : List (κ × β) :=
  (keys entries).filterMap fun key => (find? entries key).map fun value => (key, value)

def group (entries : List (κ × β)) : List (κ × List β) :=
  (keys entries).map fun key => (key, (entries.filter fun entry => entry.1 == key).map Prod.snd)

end FlowAlign.Table

import TicketDesk.Health
import TicketDesk.Screen.Style
import TicketDesk.Terminal.Front

/-! # Theme

The styles of the console by what they are for. -/

namespace TicketDesk.Screen.Theme

def text : Style := .colored .white
def muted : Style := .colored .darkGray
def secondary : Style := .colored .gray
def title : Style := .strong .cyan
def activeBorder : Style := .colored .cyan
def quietBorder : Style := .colored .darkGray

/-- The ground of a window that lies over the view. -/
def popup : Style := { bg := some (.rgb 20 20 30) }

def openTab : Style := { fg := some .black, bg := some .yellow, bold := true }

def otherTab : Style := .colored .gray

def selectedRow : Style := { fg := some .white, bg := some .blue, bold := true }

def focused : Style := .strong .cyan
def success : Style := .colored .green
def warning : Style := .colored .yellow
def error : Style := .colored .red
def info : Style := .colored .blue

/-- The name of whoever is logged in, and other marks that stand out. -/
def accent : Style := .colored .yellow

def command : Style := .colored .cyan

/-- Hints about keys, and the bars between them. -/
def hint : Style := .colored .darkGray

def heading : Style := .strong .green

def ofLevel : Terminal.Level → Style
  | .info => secondary
  | .success => success
  | .error => error

def ofHealth : Health → Style
  | .ready => success
  | .down => error
  | .unknown => muted

def healthSign : Health → String
  | .ready => "●"
  | .down => "✗"
  | .unknown => "○"

def ofOverall : Overall → Style
  | .allReady => success
  | .hasDown => error
  | .incomplete => warning

/-- An HTTP status: green when it is a success, yellow when the request was at fault, red otherwise. -/
def ofStatus : Option UInt16 → Style
  | none => muted
  | some n =>
    if 200 ≤ n ∧ n ≤ 299 then success
    else if 400 ≤ n ∧ n ≤ 499 then warning
    else error

def ofMethod : Method → Style
  | .get => .strong .blue
  | .post => .strong .yellow

end TicketDesk.Screen.Theme

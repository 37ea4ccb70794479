import Lox.Main
import Lox.Proofs.Machine.NameCheck
import Lox.Proofs.Parse.Deepest
import Lox.Proofs.Session.Join
import Lox.Proofs.Parse.Lines
import Lox.Proofs.Scan.MaximalMunch
import Lox.Proofs.Scan.Positions
import Lox.Proofs.Session.Layout
import Lox.Proofs.Session.Truncation
import Lox.Proofs.Machine.View
import Lox.Proofs.Session.FaultPlaces
import Lox.Proofs.Session.Prompt
import Lox.Proofs.Parse.FaultOrder
import Lox.Proofs.Parse.DepthCounter
import Lox.Proofs.Parse.Termination
import Lox.Proofs.Machine.BlockFrame
import Lox.Proofs.Parse.Parenthesised
import Lox.Proofs.Parse.Rendering

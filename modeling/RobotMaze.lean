import RobotMaze.Main
import RobotMaze.Proofs.Expansion.Limits
import RobotMaze.Proofs.Expansion.Meaning
import RobotMaze.Proofs.Expansion.Termination
import RobotMaze.Proofs.Session.History
import RobotMaze.Proofs.Simulation.Consistency
import RobotMaze.Proofs.Simulation.StepLimit
import RobotMaze.Proofs.Simulation.Trace
import RobotMaze.Proofs.Expansion.Moments
import RobotMaze.Proofs.Expansion.StackBound
import RobotMaze.Proofs.Expansion.Bindings
import RobotMaze.Proofs.Renaming.Text
import RobotMaze.Proofs.Renaming.Program
import RobotMaze.Proofs.Renaming.Expansion
import RobotMaze.Proofs.Check.Calls
import RobotMaze.Proofs.Check.UndefinedCalls
import RobotMaze.Proofs.Diagnostic.Spans
import RobotMaze.Proofs.Diagnostic.Columns
import RobotMaze.Proofs.Diagnostic.Frame
import RobotMaze.Proofs.Check.Places
import RobotMaze.Proofs.Check.Spans
import RobotMaze.Proofs.Check.Report
import RobotMaze.Proofs.Expansion.Literals
import RobotMaze.Proofs.Simulation.Completion
import RobotMaze.Proofs.Board.Memory
import RobotMaze.Proofs.Simulation.Isolation
import RobotMaze.Proofs.Session.Agreement
import RobotMaze.Proofs.Check.Scanners
import RobotMaze.Proofs.Check.Soundness
import RobotMaze.Proofs.Storage.FileTree
import RobotMaze.Proofs.Text.Newlines
import RobotMaze.Proofs.Text.Utf8
import RobotMaze.Proofs.Storage.Path
import RobotMaze.Proofs.Storage.Saved
import RobotMaze.Proofs.Check.Termination
import RobotMaze.Proofs.Expansion.Equations
import RobotMaze.Proofs.Program.Written
import RobotMaze.Proofs.Expansion.Recursion
import RobotMaze.Proofs.Expansion.Closures
import RobotMaze.Proofs.Expansion.Coincidence
import RobotMaze.Proofs.Program.Order
import RobotMaze.Proofs.Expansion.Reachable
import RobotMaze.Proofs.Expansion.Concatenation
import RobotMaze.Proofs.Program.Sums
import RobotMaze.Proofs.Program.Grammar
import RobotMaze.Proofs.Expansion.Arguments
import RobotMaze.Proofs.Board.Places
import RobotMaze.Proofs.Board.Normalization
import RobotMaze.Proofs.Simulation.Effects
import RobotMaze.Proofs.Simulation.Failures
import RobotMaze.Proofs.Diagnostic.Layout
import RobotMaze.Proofs.Diagnostic.Colors
import RobotMaze.Proofs.Terminal.Drawing
import RobotMaze.Proofs.Diagnostic.Tabs
import RobotMaze.Proofs.Diagnostic.Marks
import RobotMaze.Proofs.Program.Parentheses

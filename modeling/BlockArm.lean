import BlockArm.Script.Printer
import BlockArm.Supervisor
import BlockArm.Toml.Decode
import BlockArm.Proofs.Block.Shape
import BlockArm.Proofs.World.Play
import BlockArm.Proofs.Run.Endings
import BlockArm.Proofs.Run.Applied
import BlockArm.Proofs.Run.Clearance
import BlockArm.Proofs.Run.Resets
import BlockArm.Proofs.Supervisor.Homing
import BlockArm.Proofs.Script.Grammar
import BlockArm.Proofs.Script.Answers
import BlockArm.Proofs.Text.Pieces
import BlockArm.Proofs.Script.Composition
import BlockArm.Proofs.World.Matching
import BlockArm.Proofs.Run.Completion
import BlockArm.Proofs.Run.Recording
import BlockArm.Proofs.Supervisor.Beginning
import BlockArm.Proofs.Supervisor.Pump
import BlockArm.Proofs.Number.Rounding
import BlockArm.Proofs.Wrist.Range
import BlockArm.Proofs.Arm.Conduct
import BlockArm.Proofs.Run.Upkeep
import BlockArm.Proofs.Run.Belief
import BlockArm.Proofs.Run.Agreement
import BlockArm.Proofs.Run.Warnings
import BlockArm.Proofs.Run.Likeness
import BlockArm.Proofs.Supervisor.Independence
import BlockArm.Proofs.Script.Writing
import BlockArm.Proofs.Run.Turning
import BlockArm.Proofs.Run.Watching
import BlockArm.Proofs.Run.Severance
import BlockArm.Proofs.Run.Simulation
import BlockArm.Proofs.Run.Reports
import BlockArm.Proofs.Run.Stopping
import BlockArm.Proofs.Run.Verbosity
import BlockArm.Proofs.Supervisor.LastState
import BlockArm.Proofs.Supervisor.Stints
import BlockArm.Proofs.Supervisor.Credit
import BlockArm.Proofs.World.Delivery
import BlockArm.Proofs.Run.Reach
import BlockArm.Proofs.Run.Delivery
import BlockArm.Proofs.Block.Footprint
import BlockArm.Proofs.World.Layout
import BlockArm.Proofs.World.Support
import BlockArm.Proofs.World.Carrying
import BlockArm.Proofs.Number.Quotient
import BlockArm.Proofs.Number.Whole
import BlockArm.Proofs.Wrist.Aliases
import BlockArm.Proofs.Run.Quarters
import BlockArm.Proofs.Challenge.Catalog
import BlockArm.Proofs.Script.Spacing
import BlockArm.Proofs.Run.FailedHome
import BlockArm.Proofs.Arm.Workspace
import BlockArm.Proofs.Number.Length
import BlockArm.Proofs.Number.Mean
import BlockArm.Proofs.Block.Rectangle
import BlockArm.Proofs.Run.Diagnostics
import BlockArm.Proofs.Number.Step
import BlockArm.Proofs.Run.Sweep
import BlockArm.Proofs.Wrist.Drift
import BlockArm.Proofs.Run.Overflow
import BlockArm.Proofs.Block.Turns
import BlockArm.Proofs.Number.Distance
import BlockArm.Proofs.Wrist.Exact
import BlockArm.Proofs.Wrist.Nearest
import BlockArm.Proofs.Wrist.Routes

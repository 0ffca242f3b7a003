import PokerCoach.Main
import PokerCoach.Files.Tree
import PokerCoach.Store.Faulty
import PokerCoach.Proofs.Store.Lawful
import PokerCoach.Proofs.Engine.Operation
import PokerCoach.Proofs.Progress.Extension
import PokerCoach.Proofs.Engine.Run
import PokerCoach.Proofs.Engine.StoredProgress
import PokerCoach.Proofs.Curriculum.WellFormed
import PokerCoach.Proofs.Progress.Sound
import PokerCoach.Proofs.Engine.RecordInvariant
import PokerCoach.Proofs.Engine.GateUnlocking
import PokerCoach.Proofs.Engine.Current
import PokerCoach.Proofs.Progress.Timeless
import PokerCoach.Proofs.Engine.Play
import PokerCoach.Proofs.Engine.Independence
import PokerCoach.Proofs.Engine.Agreement
import PokerCoach.Proofs.Engine.Opportunities
import PokerCoach.Proofs.Engine.Ownership
import PokerCoach.Proofs.Engine.Outage
import PokerCoach.Proofs.Journal.Attainment
import PokerCoach.Proofs.Journal.Changes
import PokerCoach.Proofs.Engine.Telling
import PokerCoach.Proofs.Engine.Openings
import PokerCoach.Proofs.Engine.History
import PokerCoach.Proofs.Engine.Chronicle
import PokerCoach.Proofs.Store.Refinement
import PokerCoach.Proofs.Engine.FileFrame
import PokerCoach.Proofs.Engine.Closing
import PokerCoach.Proofs.Command.DryRun
import PokerCoach.Proofs.Command.Accounting
import PokerCoach.Proofs.Command.Formats
import PokerCoach.Proofs.Engine.Remembering
import PokerCoach.Proofs.Engine.Onboarding
import PokerCoach.Proofs.Engine.Emission
import PokerCoach.Proofs.Progress.Folding
import PokerCoach.Proofs.Progress.Migration
import PokerCoach.Proofs.Curriculum.Acceptance
import PokerCoach.Proofs.Engine.Rows
import PokerCoach.Proofs.Curriculum.Rebuilding
import PokerCoach.Proofs.Progress.Hysteresis
import PokerCoach.Proofs.Session.Cadence
import PokerCoach.Proofs.Hand.Aggression
import PokerCoach.Proofs.Settings.Precedence
import PokerCoach.Proofs.Engine.Windows
import PokerCoach.Proofs.Engine.LockedSkills
import PokerCoach.Proofs.Command.Listing
import PokerCoach.Proofs.Skill.CreditedShare
import PokerCoach.Proofs.Store.Paths

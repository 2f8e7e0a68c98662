import Tasking.Environment
import Tasking.Main
import Tasking.Queue.Exchange
import Tasking.Script.Session
import Tasking.Word
import Tasking.Proofs.Stuck
import Tasking.Proofs.Apart.Separation
import Tasking.Proofs.Across
import Tasking.Proofs.Driving
import Tasking.Proofs.Evaluating
import Tasking.Proofs.Intact.Unbroken
import Tasking.Proofs.Granting
import Tasking.Proofs.Outside
import Tasking.Proofs.Delivery
import Tasking.Proofs.Queue.Lists
import Tasking.Proofs.Ring.Outcome
import Tasking.Proofs.Leaving
import Tasking.Proofs.Halting.Trees
import Tasking.Proofs.Parked.Untouched
import Tasking.Proofs.Commuting
import Tasking.Proofs.Refusing
import Tasking.Proofs.Cancelling
import Tasking.Proofs.Lifetime
import Tasking.Proofs.Mail.Acting
import Tasking.Proofs.Mail.Boxes
import Tasking.Proofs.Mail.Posts
import Tasking.Proofs.Mail.Serial
import Tasking.Proofs.Names.Stable
import Tasking.Proofs.Unwinding.Landing
import Tasking.Proofs.Rally.Score
import Tasking.Proofs.Contents
import Tasking.Proofs.Reading.Arguments
import Tasking.Proofs.Chains.Relinking
import Tasking.Proofs.Passing.Transparency

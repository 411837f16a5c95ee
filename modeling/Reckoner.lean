import Reckoner.Main
import Reckoner.Proofs.Checked.Evaluation
import Reckoner.Proofs.Command.Coherence
import Reckoner.Proofs.Command.Frames
import Reckoner.Proofs.Command.Recovery
import Reckoner.Proofs.Command.Sessions
import Reckoner.Proofs.Expression.Hints
import Reckoner.Proofs.Expression.Lexemes
import Reckoner.Proofs.Expression.Order
import Reckoner.Proofs.Expression.Places
import Reckoner.Proofs.Expression.Rounded
import Reckoner.Proofs.Expression.WellFormed
import Reckoner.Proofs.Journal.Changes
import Reckoner.Proofs.Phrase.BareCalls
import Reckoner.Proofs.Phrase.Transparency
import Reckoner.Proofs.Toolbox.Replies
import Reckoner.Proofs.Translator.Attempts
import Reckoner.Proofs.Translator.Mirrored
import Reckoner.Proofs.Translator.Reported
import Reckoner.Proofs.Translator.Retries
import Reckoner.Proofs.Decoration
import Reckoner.Proofs.Text.Words
import Reckoner.Proofs.Phrase.Spelling
import Reckoner.Proofs.Phrase.Chains
import Reckoner.Proofs.Phrase.Percentages
import Reckoner.Proofs.Phrase.Shares
import Reckoner.Proofs.Settings.Loading
import Reckoner.Proofs.Settings.Nearest

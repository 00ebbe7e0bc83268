import DiceDuel.Binary64.Basic
import DiceDuel.Binary64.Decimal
import DiceDuel.Binary64.Rounding
import DiceDuel.Casting.Arguments
import DiceDuel.Casting.Gate
import DiceDuel.Casting.Journal
import DiceDuel.Casting.Outcome
import DiceDuel.Die.Face
import DiceDuel.Die.Source
import DiceDuel.Duel.Basic
import DiceDuel.Duel.Clock
import DiceDuel.Duel.Hooks
import DiceDuel.Duel.Settings
import DiceDuel.Duel.Snapshot
import DiceDuel.HashTable.Basic
import DiceDuel.HashTable.Path
import DiceDuel.Json.Basic
import DiceDuel.Json.Casting
import DiceDuel.Json.Duel
import DiceDuel.Json.Spell
import DiceDuel.Random.Choice
import DiceDuel.Random.Generator
import DiceDuel.Random.Keystream
import DiceDuel.Random.SipHash
import DiceDuel.Random.Stream
import DiceDuel.Side
import DiceDuel.SortedMap
import DiceDuel.Spell.Base
import DiceDuel.Spell.Basic
import DiceDuel.Spell.Code
import DiceDuel.Spell.Draft
import DiceDuel.Spell.Reader
import DiceDuel.Spell.Scaling
import DiceDuel.Spell.Value
import DiceDuel.Text.Blank
import DiceDuel.Text.CodePoint
import DiceDuel.Text.DefaultIgnorable
import DiceDuel.Text.GraphemeExtend
import DiceDuel.Text.Hash
import DiceDuel.Text.Numeral
import DiceDuel.Text.Quoted
import DiceDuel.Text.Unprinted
import DiceDuel.Proofs.Duel.Moves
import DiceDuel.Proofs.Duel.Runs
import DiceDuel.Proofs.Duel.History
import DiceDuel.Proofs.Duel.Waiting
import DiceDuel.Proofs.SortedMap
import DiceDuel.Proofs.Spell.Groups
import DiceDuel.Proofs.Spell.Rereading
import DiceDuel.Proofs.Duel.Pacing
import DiceDuel.Proofs.Casting.Effects
import DiceDuel.Proofs.Die.Script
import DiceDuel.Proofs.Duel.Ledger
import DiceDuel.Proofs.Duel.Redaction
import DiceDuel.Proofs.Duel.Bookkeeping
import DiceDuel.Proofs.Spell.Grammar
import DiceDuel.Proofs.Text.Utf8
import DiceDuel.Proofs.Spell.Bytes
import DiceDuel.Proofs.Spell.Writing
import DiceDuel.Proofs.Spell.Edits
import DiceDuel.Proofs.Spell.Faults
import DiceDuel.Proofs.Spell.TokenForms
import DiceDuel.Proofs.Casting.Strictness
import DiceDuel.Proofs.Casting.Drafts
import DiceDuel.Proofs.Duel.Idle
import DiceDuel.Proofs.Casting.Draws
import DiceDuel.Proofs.Casting.Series
import DiceDuel.Proofs.Json.Basic
import DiceDuel.Proofs.Json.Spell
import DiceDuel.Proofs.Json.Casting
import DiceDuel.Proofs.Json.Duel
import DiceDuel.Proofs.Spell.Canonical
import DiceDuel.Proofs.Duel.Noted
import DiceDuel.Proofs.Duel.Deaths
import DiceDuel.Proofs.Duel.Moments
import DiceDuel.Proofs.Duel.EnemyTurns
import DiceDuel.Proofs.Duel.EnemyPace
import DiceDuel.Proofs.Binary64.Representable
import DiceDuel.Proofs.Spell.Bands
import DiceDuel.Proofs.Spell.Lookup
import DiceDuel.Proofs.Random.Checkpoints
import DiceDuel.Proofs.Duel.Suspension
import DiceDuel.Proofs.Random.Choice
import DiceDuel.Proofs.Duel.Loops
import DiceDuel.Proofs.Duel.Bookings

import Portcullis.Ties
import Portcullis.Findings
import Portcullis.Bridge
import Portcullis.Lib.Arrange
import Portcullis.Reorder
import Portcullis.Config
import Portcullis.Lib.Machine
import Portcullis.Daemon
import Portcullis.Session
import Portcullis.Threads
import Portcullis.Races
import Portcullis.Status
import Portcullis.Watch
import Portcullis.Cidr
import Portcullis.Collisions
import Portcullis.Containment
import Portcullis.Document
import Portcullis.Overlap
import Portcullis.RoundTrip
import Portcullis.Cli
import Portcullis.LiveRaces
import Portcullis.Evaluate
import Portcullis.Precision
import Portcullis.Unread
import Portcullis.Installed
import Portcullis.Edits
import Portcullis.FieldOrder
import Portcullis.Settled
import Portcullis.Sequential
import Portcullis.Lib.Lines

import Spotifile.Lib.Loop
import Spotifile.Lib.Replace
import Spotifile.Strings
import Spotifile.XspfSanitize
import Spotifile.Path
import Spotifile.Audio
import Spotifile.Conservation
import Spotifile.EndOfTrack
import Spotifile.LastFrames
import Spotifile.WavFile
import Spotifile.WavOwner
import Spotifile.Entity
import Spotifile.FindPath
import Spotifile.Growth
import Spotifile.Links
import Spotifile.Playlist
import Spotifile.Alone
import Spotifile.ApiLock
import Spotifile.ApiLockRuns
import Spotifile.BrowseDirs
import Spotifile.Collisions
import Spotifile.Counters
import Spotifile.Handles
import Spotifile.Lib.History
import Spotifile.Mkdir
import Spotifile.MusicListing
import Spotifile.RandomAccess
import Spotifile.RandomAccessRuns
import Spotifile.Renewal
import Spotifile.TreeInvariant
import Spotifile.Lib.Paths
import Spotifile.Lib.Fields
import Spotifile.Lib.Markup
import Spotifile.Lib.Settled
import Spotifile.WavHeader
import Spotifile.SeekPosition
import Spotifile.WavExclusive
import Spotifile.Names
import Spotifile.IsMounted
import Spotifile.Notify
import Spotifile.XspfDocument
import Spotifile.Refill
import Spotifile.CommonPrefix
import Spotifile.Lib.Pieces
import Spotifile.ReadOffset
import Spotifile.Destroy
import Spotifile.LayoutRuns
import Spotifile.Contents
import Spotifile.DeadlockRuns
import Spotifile.LoadingRuns
import Spotifile.XspfReader
import Spotifile.ShortestPath
import Spotifile.PlaybackPipe
import Spotifile.SearchListing
